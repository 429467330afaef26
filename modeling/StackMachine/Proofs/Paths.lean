import Mathlib.Data.List.Infix
import StackMachine.Files.Tree

/-!
# Places that paths lead to

There are no links, so the parts of a path alone decide which place it leads to, whatever is there.
Cleaning a path keeps this place. The paths on the way along a cleaned path lead to places above the
one where it ends, or above the one where it begins.
-/

namespace StackMachine.Path

/-! ### Parts -/

theorem splitSlashes_eq_splitOn (cs : List Char) : splitSlashes cs = List.splitOn '/' cs := by
  unfold List.splitOn
  induction cs with
  | nil => rfl
  | cons c cs ih =>
    rw [splitSlashes, List.splitOnP_cons_eq_if_modifyHead, ih]
    cases h : List.splitOnP (· == '/') cs with
    | nil => exact absurd h (List.splitOnP_ne_nil _ _)
    | cons piece pieces => by_cases slash : c = '/' <;> simp [slash]

theorem slash_not_mem_of_mem_splitSlashes {cs piece : List Char} (h : piece ∈ splitSlashes cs) :
    '/' ∉ piece := by
  fun_induction splitSlashes cs generalizing piece <;> grind

theorem toList_parts (path : String) :
    (parts path).map String.toList = splitSlashes path.toList := by
  simp [parts, Function.comp_def]

theorem parts_ne_nil (path : String) : parts path ≠ [] := by
  simp [parts, splitSlashes_eq_splitOn, List.splitOn]

theorem intercalate_parts (path : String) : "/".intercalate (parts path) = path := by
  rw [← String.toList_inj, String.toList_intercalate, toList_parts, splitSlashes_eq_splitOn]
  exact List.intercalate_splitOn '/'

/-- A text without slashes. -/
def Plain (part : String) : Prop := '/' ∉ part.toList

theorem plain_of_mem_parts {path part : String} (h : part ∈ parts path) : Plain part := by
  have hm : part.toList ∈ splitSlashes path.toList := by
    rw [← toList_parts]
    exact List.mem_map_of_mem h
  exact slash_not_mem_of_mem_splitSlashes hm

theorem parts_intercalate {ps : List String} (plain : ∀ part ∈ ps, Plain part) (h : ps ≠ []) :
    parts ("/".intercalate ps) = ps := by
  apply List.map_injective_iff.2 (fun _ _ => String.toList_inj.1)
  rw [toList_parts, String.toList_intercalate, splitSlashes_eq_splitOn]
  refine List.splitOn_intercalate '/' ?_ (by simpa using h)
  simpa [Plain] using plain

theorem intercalate_concat_empty {ps : List String} (h : ps ≠ []) :
    "/".intercalate (ps ++ [""]) = "/".intercalate ps ++ "/" := by
  rw [← String.toList_inj, String.toList_append, String.toList_intercalate,
    String.toList_intercalate, List.map_append]
  induction ps with
  | nil => exact absurd rfl h
  | cons part ps ih =>
    by_cases hps : ps = []
    · subst hps
      simp [List.intercalate]
    · rw [List.map_cons, List.cons_append, List.intercalate_cons_of_ne_nil (by simp), ih hps,
        List.intercalate_cons_of_ne_nil (by simpa using hps), List.append_assoc, List.append_assoc,
        List.append_assoc]

theorem parts_intercalate_append_slash {ps : List String} (plain : ∀ part ∈ ps, Plain part)
    (h : ps ≠ []) : parts ("/".intercalate ps ++ "/") = ps ++ [""] := by
  rw [← intercalate_concat_empty h]
  refine parts_intercalate (fun part hp => ?_) (by simp)
  obtain hp | hp := List.mem_append.1 hp
  · exact plain part hp
  · rw [List.mem_singleton.1 hp]
    simp [Plain]

theorem intercalate_empty_cons {ps : List String} (h : ps ≠ []) :
    "/".intercalate ("" :: ps) = "/" ++ "/".intercalate ps := by
  rw [← String.toList_inj, String.toList_append, String.toList_intercalate,
    String.toList_intercalate, List.map_cons, List.intercalate_cons_of_ne_nil (by simpa using h)]
  rfl

/-- An absolute path begins with a slash, so its first part is empty and is not its last. -/
theorem isAbsolute_iff (path : String) :
    isAbsolute path = true ↔ ∃ rest, rest ≠ [] ∧ parts path = "" :: rest := by
  unfold isAbsolute parts
  cases path.toList with
  | nil => simp [splitSlashes]
  | cons c cs =>
    have nonempty : splitSlashes cs ≠ [] := by
      rw [splitSlashes_eq_splitOn]
      exact List.splitOnP_ne_nil _ _
    obtain ⟨piece, pieces, hp⟩ := List.exists_cons_of_ne_nil nonempty
    by_cases slash : c = '/' <;> simp [splitSlashes, slash, hp]

/-! ### Places -/

/-- Where one part leads from a place. -/
def follow (place : Place) (part : String) : Place :=
  if part = "" || part = "." then place
  else if part = ".." then place.dropLast
  else place ++ [part]

/-- Where parts lead from a place. -/
def lead (place : Place) (ps : List String) : Place := ps.foldl follow place

@[simp] theorem follow_empty (place : Place) : follow place "" = place := rfl

@[simp] theorem follow_up (place : Place) : follow place ".." = place.dropLast := rfl

theorem follow_name {part : String} (name : FileTree.isStep part = false) (place : Place) :
    follow place part = place ++ [part] := by
  simp_all [FileTree.isStep, follow]

/-- A part that is no name does not lead further down. -/
theorem follow_prefix {part : String} (step : FileTree.isStep part = true) (place : Place) :
    follow place part <+: place := by
  obtain (rfl | rfl) | rfl : (part = "" ∨ part = ".") ∨ part = ".." := by
    simpa [FileTree.isStep] using step
  · exact List.prefix_rfl
  · exact List.prefix_rfl
  · exact List.dropLast_prefix place

@[simp] theorem lead_nil (place : Place) : lead place [] = place := rfl

@[simp] theorem lead_cons (place : Place) (part : String) (ps : List String) :
    lead place (part :: ps) = lead (follow place part) ps := rfl

theorem lead_append (place : Place) (ps qs : List String) :
    lead place (ps ++ qs) = lead (lead place ps) qs :=
  List.foldl_append

/-- Where a path begins for someone who is at `here`. -/
def origin (here : Place) (path : String) : Place := if isAbsolute path then [] else here

/-- Where a path leads someone who is at `here`. -/
def place (here : Place) (path : String) : Place := lead (origin here path) (parts path)

/-! ### Cleaned paths -/

/-- Parts, last first, of which no more can be taken back: names, before them parts that lead up. -/
inductive Reduced : List String → Prop where
  | ups {kept : List String} : (∀ part ∈ kept, part = "..") → Reduced kept
  | name {part : String} {kept : List String} : FileTree.isStep part = false → Reduced kept →
      Reduced (part :: kept)

theorem Reduced.nil : Reduced [] := .ups (by simp)

theorem Reduced.ups_of_up {kept : List String} (h : Reduced (".." :: kept)) :
    ∀ part ∈ kept, part = ".." := by
  cases h with
  | ups all => exact fun part hp => all part (List.mem_cons_of_mem _ hp)
  | name name _ => exact absurd name (by decide)

theorem Reduced.tail {part : String} {kept : List String} (h : Reduced (part :: kept)) :
    Reduced kept := by
  cases h with
  | ups all => exact .ups fun part hp => all part (List.mem_cons_of_mem _ hp)
  | name _ rest => exact rest

theorem Reduced.isStep_head {part : String} {kept : List String} (h : Reduced (part :: kept))
    (down : part ≠ "..") : FileTree.isStep part = false := by
  cases h with
  | ups all => exact absurd (all part List.mem_cons_self) down
  | name name _ => exact name

theorem Reduced.ne_empty {kept : List String} (h : Reduced kept) {part : String}
    (hp : part ∈ kept) : part ≠ "" := by
  induction h with
  | ups all =>
    rw [all part hp]
    decide
  | name name _ ih =>
    obtain rfl | hp := List.mem_cons.1 hp
    · rintro rfl
      exact absurd name (by decide)
    · exact ih hp

variable {absolute : Bool} {kept ps : List String} {start here : Place}

theorem reduced_cleanPart (h : Reduced kept) (absolute : Bool) (part : String) :
    Reduced (cleanPart absolute kept part) := by
  unfold cleanPart
  split
  · exact h
  next named =>
    split
    · cases kept with
      | nil => cases absolute <;> exact .ups (by simp)
      | cons last rest =>
        dsimp only
        split
        next up =>
          subst up
          refine .ups fun part hp => ?_
          obtain rfl | hp := List.mem_cons.1 hp
          · rfl
          obtain rfl | hp := List.mem_cons.1 hp
          · rfl
          · exact h.ups_of_up part hp
        · exact h.tail
    next down => exact .name (by simp_all [FileTree.isStep]) h

/-- Keeping parts leads to the same place as following them. -/
theorem lead_cleanPart (h : Reduced kept) (root : absolute = true → start = []) (part : String) :
    lead start (cleanPart absolute kept part).reverse = follow (lead start kept.reverse) part := by
  unfold cleanPart
  split
  next stays =>
    obtain rfl | rfl : part = "" ∨ part = "." := by simpa using stays
    · rfl
    · rfl
  next named =>
    split
    next up =>
      subst up
      cases kept with
      | nil =>
        cases absolute with
        | true => simp [root rfl]
        | false => simp
      | cons last rest =>
        by_cases up : last = ".."
        · simp [up, lead_append]
        · have name := h.isStep_head up
          simp [up, lead_append, follow_name name]
    next down => simp [lead_append]

theorem reduced_foldl_cleanPart (h : Reduced kept) (absolute : Bool) (ps : List String) :
    Reduced (ps.foldl (cleanPart absolute) kept) := by
  induction ps generalizing kept with
  | nil => exact h
  | cons part ps ih => exact ih (reduced_cleanPart h absolute part)

theorem lead_foldl_cleanPart (h : Reduced kept) (root : absolute = true → start = [])
    (ps : List String) :
    lead start (ps.foldl (cleanPart absolute) kept).reverse = lead (lead start kept.reverse) ps := by
  induction ps generalizing kept with
  | nil => rfl
  | cons part ps ih =>
    rw [List.foldl_cons, ih (reduced_cleanPart h absolute part), lead_cleanPart h root, lead_cons]

theorem mem_foldl_cleanPart {part : String}
    (h : part ∈ ps.foldl (cleanPart absolute) kept) : part = ".." ∨ part ∈ ps ∨ part ∈ kept := by
  induction ps generalizing kept with
  | nil => exact .inr (.inr h)
  | cons p ps ih =>
    have step : ∀ q ∈ cleanPart absolute kept p, q = ".." ∨ q = p ∨ q ∈ kept := by
      unfold cleanPart
      grind
    grind

/-- The places on the way along reduced parts lie above the start or above the end. -/
theorem Reduced.lead_take_prefix (h : Reduced kept) (start : Place) (n : Nat) :
    lead start (kept.reverse.take n) <+: start ∨
      lead start (kept.reverse.take n) <+: lead start kept.reverse := by
  induction h generalizing n with
  | ups all =>
    refine .inl ?_
    have ups : ∀ qs : List String, (∀ q ∈ qs, q = "..") → ∀ place, lead place qs <+: place := by
      intro qs hqs
      induction qs with
      | nil => exact fun place => List.prefix_rfl
      | cons q qs ih =>
        intro place
        obtain rfl := hqs q List.mem_cons_self
        exact (ih (fun q hq => hqs q (List.mem_cons_of_mem _ hq)) _).trans (List.dropLast_prefix _)
    exact ups _ (fun q hq => all q (by simpa using List.mem_of_mem_take hq)) start
  | @name part kept name _ ih =>
    rw [List.reverse_cons]
    obtain short | all := Nat.lt_or_ge kept.reverse.length n
    · rw [List.take_of_length_le (by simp at short ⊢; omega)]
      exact .inr List.prefix_rfl
    · rw [List.take_append_of_le_length all]
      refine (ih n).imp_right fun above => above.trans ?_
      rw [lead_append, lead_cons, lead_nil, follow_name name]
      exact List.prefix_append _ _

/-! ### The way to the directory of a path -/

/-- The directory of a path is written with reduced parts that lead to the same place as all parts
of the path but the last. -/
theorem exists_reduced_directory (path : String) :
    ∃ kept, Reduced kept ∧ (∀ part ∈ kept, Plain part) ∧
      (∀ here, lead (origin here path) kept.reverse =
        lead (origin here path) (parts path).dropLast) ∧
      directory path = if isAbsolute path then "/" ++ "/".intercalate kept.reverse
        else if kept = [] then "." else "/".intercalate kept.reverse := by
  obtain ⟨before, last, hpath⟩ : ∃ before last, parts path = before ++ [last] :=
    ⟨_, _, (List.dropLast_append_getLast (parts_ne_nil path)).symm⟩
  rw [hpath, List.dropLast_concat, directory, hpath, List.dropLast_concat]
  cases before with
  | nil =>
    have relative : isAbsolute path = false := by
      rw [← Bool.not_eq_true, isAbsolute_iff, hpath]
      simp
    exact ⟨[], .nil, nofun, fun here => rfl, by simp [relative]⟩
  | cons first others =>
    have plain : ∀ part ∈ first :: others, Plain part := fun part hp =>
      plain_of_mem_parts (hpath ▸ List.mem_append_left _ hp)
    have hraw : parts ("/".intercalate (first :: others) ++ "/") = (first :: others) ++ [""] :=
      parts_intercalate_append_slash plain (List.cons_ne_nil _ _)
    have same : isAbsolute ("/".intercalate (first :: others) ++ "/") = isAbsolute path := by
      rw [Bool.eq_iff_iff, isAbsolute_iff, isAbsolute_iff, hraw, hpath]
      simp
    let kept := (first :: others).foldl (cleanPart (isAbsolute path)) []
    have reduced : Reduced kept := reduced_foldl_cleanPart .nil _ _
    refine ⟨kept, reduced, fun part hp => ?_, fun here => ?_, ?_⟩
    · obtain rfl | hp | hp := mem_foldl_cleanPart hp
      · simp [Plain]
      · exact plain part hp
      · cases hp
    · refine lead_foldl_cleanPart .nil (fun absolute => ?_) _
      rw [origin, if_pos absolute]
    · -- the empty part after the last slash changes nothing
      have all : ((first :: others) ++ [""]).foldl (cleanPart (isAbsolute path)) [] = kept := by
        rw [List.foldl_append]
        rfl
      simp only [clean, hraw, same, all, List.isEmpty_reverse, List.isEmpty_iff]

theorem exists_parts_of_mem_stages {path stage : String} (h : stage ∈ stages path) :
    stage ≠ "" ∧ ∃ n, parts stage = (parts path).take (n + 1) := by
  obtain ⟨h, nonempty⟩ := List.mem_filter.1 h
  obtain ⟨n, hn, rfl⟩ := List.mem_map.1 h
  refine ⟨by simpa using nonempty, n, parts_intercalate (fun part hp => ?_) ?_⟩
  · exact plain_of_mem_parts (List.mem_of_mem_take hp)
  · simpa using parts_ne_nil path

theorem Reduced.getLast?_take_ne_empty {kept : List String} (reduced : Reduced kept) (n : Nat) :
    (kept.reverse.take n).getLast? ≠ some "" := by
  intro empty
  exact reduced.ne_empty (by simpa using List.mem_of_mem_take (List.mem_of_getLast? empty)) rfl

/-- A path on the way from the root goes along the parts of the whole. -/
theorem place_of_absolute_stage {kept : List String} {stage : String} {n : Nat}
    (reduced : Reduced kept) (nonempty : stage ≠ "")
    (hparts : parts stage = "" :: kept.reverse.take n) (here : Place) :
    (parts stage).getLast? ≠ some "" ∧ place here stage <+: lead [] kept.reverse := by
  have further : kept.reverse.take n ≠ [] := by
    intro nothing
    have back : "/".intercalate (parts stage) = stage := intercalate_parts stage
    rw [hparts, nothing] at back
    exact nonempty back.symm
  have absolute : isAbsolute stage = true := (isAbsolute_iff _).2 ⟨_, further, hparts⟩
  refine ⟨?_, ?_⟩
  · rw [hparts, List.getLast?_cons_of_ne_nil further]
    exact reduced.getLast?_take_ne_empty n
  · rw [place, origin, if_pos absolute, hparts, lead_cons, follow_empty]
    obtain above | along := reduced.lead_take_prefix [] n
    · exact above.trans List.nil_prefix
    · exact along

/-- A path on the way from here goes up from here first and then along the parts of the whole. -/
theorem place_of_relative_stage {kept : List String} {stage : String} {n : Nat}
    (reduced : Reduced kept) (hparts : parts stage = kept.reverse.take n) (here : Place) :
    (parts stage).getLast? ≠ some "" ∧
      (place here stage <+: here ∨ place here stage <+: lead here kept.reverse) := by
  have relative : ¬ isAbsolute stage = true := by
    rw [isAbsolute_iff, hparts]
    rintro ⟨rest, -, hr⟩
    have first : "" ∈ kept.reverse.take n := hr ▸ List.mem_cons_self
    exact reduced.ne_empty (by simpa using List.mem_of_mem_take first) rfl
  refine ⟨hparts ▸ reduced.getLast?_take_ne_empty n, ?_⟩
  rw [place, origin, if_neg relative, hparts]
  exact reduced.lead_take_prefix here n

/-- The directory of a path is the root or the current directory, or goes along reduced parts from
one of them. -/
theorem exists_parts_directory (path : String) :
    ∃ kept, Reduced kept ∧
      (∀ here, lead (origin here path) kept.reverse =
        lead (origin here path) (parts path).dropLast) ∧
      parts (directory path) =
        if isAbsolute path then "" :: (if kept = [] then [""] else kept.reverse)
        else if kept = [] then ["."] else kept.reverse := by
  obtain ⟨kept, reduced, plain, same, hdir⟩ := exists_reduced_directory path
  have plain : ∀ part ∈ kept.reverse, Plain part := by simpa using plain
  refine ⟨kept, reduced, same, ?_⟩
  rw [hdir]
  by_cases none : kept = []
  · subst none
    split <;> rfl
  · have some : kept.reverse ≠ [] := by simpa using none
    rw [if_neg none, if_neg none, if_neg none]
    split
    · rw [← intercalate_empty_cons some, parts_intercalate ?_ (by simp)]
      simpa [Plain] using plain
    · exact parts_intercalate plain some

theorem isAbsolute_directory (path : String) : isAbsolute (directory path) = isAbsolute path := by
  obtain ⟨kept, reduced, -, hparts⟩ := exists_parts_directory path
  rw [Bool.eq_iff_iff, isAbsolute_iff, hparts]
  split
  next absolute =>
    refine iff_of_true ⟨_, ?_, rfl⟩ absolute
    split
    · simp
    next some => simpa using some
  next relative =>
    refine iff_of_false ?_ relative
    rintro ⟨rest, -, hr⟩
    split at hr
    · simp at hr
    · have first : "" ∈ kept.reverse := hr ▸ List.mem_cons_self
      exact reduced.ne_empty (List.mem_reverse.1 first) rfl

/-- The directory of a path is where all parts but the last lead. -/
theorem place_directory (here : Place) (path : String) :
    place here (directory path) = lead (origin here path) (parts path).dropLast := by
  obtain ⟨kept, -, same, hparts⟩ := exists_parts_directory path
  rw [← same here, place, origin, isAbsolute_directory, hparts, ← origin]
  split
  · rw [lead_cons, follow_empty]
    split
    next none =>
      rw [none]
      rfl
    · rfl
  · split
    next none =>
      rw [none]
      rfl
    · rfl

theorem directory_ne_empty (path : String) : directory path ≠ "" := by
  intro empty
  obtain ⟨kept, reduced, -, hparts⟩ := exists_parts_directory path
  rw [empty, show parts "" = [""] by decide] at hparts
  split at hparts
  · split at hparts
    · simp at hparts
    next some =>
      have : kept.reverse = [] := (List.cons.inj hparts).2.symm
      exact some (List.reverse_eq_nil_iff.1 this)
  · split at hparts
    · simp at hparts
    · have only : "" ∈ kept.reverse := hparts ▸ List.mem_cons_self
      exact reduced.ne_empty (List.mem_reverse.1 only) rfl

theorem mem_stages_self {path : String} (h : path ≠ "") : path ∈ stages path := by
  have last : (parts path).length - 1 + 1 = (parts path).length :=
    Nat.succ_pred (List.length_pos_iff.2 (parts_ne_nil path)).ne'
  refine List.mem_filter.2 ⟨List.mem_map.2 ⟨(parts path).length - 1, ?_, ?_⟩, by simpa using h⟩
  · rw [List.mem_range]
    omega
  · rw [last, List.take_length, intercalate_parts]

/-- A path on the way to the directory of another leads above that directory or above the place
where it begins. Unless it is the root, it does not end in a slash. -/
theorem place_of_mem_stages {path stage : String} (h : stage ∈ stages (directory path))
    (here : Place) :
    (stage = "/" ∨ (parts stage).getLast? ≠ some "") ∧
      (place here stage <+: here ∨
        place here stage <+: lead (origin here path) (parts path).dropLast) := by
  obtain ⟨kept, reduced, same, hdir⟩ := exists_parts_directory path
  obtain ⟨nonempty, n, hstage⟩ := exists_parts_of_mem_stages h
  have back : "/".intercalate (parts stage) = stage := intercalate_parts stage
  rw [hdir] at hstage
  rw [← same here, origin]
  by_cases absolute : isAbsolute path = true
  · rw [if_pos absolute] at hstage ⊢
    by_cases none : kept = []
    · rw [if_pos none] at hstage
      obtain rfl : stage = "/" := by
        rw [hstage] at back
        cases n with
        | zero => exact absurd back.symm nonempty
        | succ n => exact back.symm.trans (by simp)
      exact ⟨.inl rfl, .inl List.nil_prefix⟩
    · rw [if_neg none, List.take_succ_cons] at hstage
      obtain ⟨named, along⟩ := place_of_absolute_stage reduced nonempty hstage here
      exact ⟨.inr named, .inr along⟩
  · rw [if_neg absolute] at hstage ⊢
    by_cases none : kept = []
    · rw [if_pos none, List.take_of_length_le (by simp)] at hstage
      obtain rfl : stage = "." := by rw [← back, hstage]; rfl
      exact ⟨.inr (by decide), .inl List.prefix_rfl⟩
    · rw [if_neg none] at hstage
      obtain ⟨named, along⟩ := place_of_relative_stage reduced hstage here
      exact ⟨.inr named, along⟩

end StackMachine.Path
