import StackMachine.Files.Store
import StackMachine.Proofs.Paths

/-!
# Files in a tree

What can be read at a path after something has been written there, and why making the directories on
the way to a file neither hides it nor brings one to light. The latter rests on trees being
well-formed: whatever is in a tree lies in a directory of the tree.
-/

namespace StackMachine.FileTree

open StackMachine.Path (follow lead origin place)

variable {t u v : FileTree} {p q : Place} {n : Node} {path part : String} {ps : List String}

/-! ### Nodes -/

theorem lookup_filter_ne (nodes : List (Place × Node)) (p q : Place) :
    (nodes.filter (·.1 ≠ p)).lookup q = if q = p then none else nodes.lookup q := by
  induction nodes with
  | nil => simp
  | cons entry nodes ih =>
    obtain ⟨r, n⟩ := entry
    by_cases hr : r = p <;> by_cases hq : q = r <;> grind

theorem node?_put (hp : p ≠ []) (q : Place) :
    (t.put p n).node? q = if q = p then some n else t.node? q := by
  unfold node? put
  simp only [List.lookup_append, lookup_filter_ne]
  by_cases hq : q = p
  · simp [hq, hp]
  · have other : (q == p) = false := beq_eq_false_iff_ne.2 hq
    simp [hq, List.lookup_cons, other]

/-- Everything in the tree lies in a directory of the tree, and so does the current directory. -/
structure WellFormed (t : FileTree) : Prop where
  parent : ∀ p part n, t.node? (p ++ [part]) = some n → t.node? p = some .directory
  here : t.node? t.here = some .directory

/-- All places above something in a well-formed tree are directories. -/
theorem WellFormed.directory_of_prefix (wf : t.WellFormed) (h : t.node? q = some .directory)
    (above : p <+: q) : t.node? p = some .directory := by
  obtain ⟨rest, rfl⟩ := above
  induction rest using List.reverseRecOn with
  | nil => simpa using h
  | append_singleton rest part ih =>
    rw [← List.append_assoc] at h
    exact ih (wf.parent _ _ _ h)

/-! ### Walks -/

theorem target_eq_ok (h : t.target p part = .ok q) :
    t.node? p = some .directory ∧ q = follow p part := by
  unfold target at h
  unfold follow
  grind

theorem walk_append (p : Place) (ps qs : List String) :
    t.walk p (ps ++ qs) = match t.walk p ps with
      | .ok q => t.walk q qs
      | .error e => .error e := by
  induction ps generalizing p with
  | nil => rfl
  | cons part ps ih =>
    rw [List.cons_append, walk, walk]
    cases t.target p part with
    | error e => rfl
    | ok q => by_cases found : (t.node? q).isSome <;> simp [found, ih]

theorem walk_eq_lead (h : t.walk p ps = .ok q) : q = lead p ps := by
  induction ps generalizing p with
  | nil => exact (Except.ok.inj h).symm
  | cons part ps ih =>
    unfold walk at h
    cases ht : t.target p part with
    | error e => simp [ht] at h
    | ok r =>
      obtain ⟨-, rfl⟩ := target_eq_ok ht
      by_cases found : (t.node? (follow p part)).isSome
      · exact ih (by simpa [ht, found] using h)
      · simp [ht, found] at h

/-- A walk that ends by staying where it is ends in a directory. -/
theorem walk_concat_dot (h : t.walk p (ps ++ ["."]) = .ok q) :
    t.walk p ps = .ok q ∧ t.node? q = some .directory := by
  rw [walk_append] at h
  cases hw : t.walk p ps with
  | error e => simp [hw] at h
  | ok r =>
    simp only [hw, walk] at h
    cases ht : t.target r "." with
    | error e => simp [ht] at h
    | ok s =>
      obtain ⟨directory, stays⟩ := target_eq_ok ht
      obtain rfl : s = r := stays
      simp only [ht, directory] at h
      cases h
      exact ⟨rfl, directory⟩

/-! ### Growing trees -/

/-- A tree that keeps the directories of another and has something wherever the other has. -/
structure Grows (t u : FileTree) : Prop where
  here : u.here = t.here
  directory : ∀ p, t.node? p = some .directory → u.node? p = some .directory
  present : ∀ p, (t.node? p).isSome → (u.node? p).isSome

theorem Grows.put (hp : p ≠ []) (h : t.node? p ≠ some .directory) : t.Grows (t.put p n) := by
  refine ⟨rfl, fun q hq => ?_, fun q hq => ?_⟩ <;> rw [node?_put hp]
  · rw [if_neg (by rintro rfl; exact h hq), hq]
  · by_cases same : q = p <;> simp [same, hq]

theorem Grows.target (grows : t.Grows u) (h : t.target p part = .ok q) :
    u.target p part = .ok q := by
  have directory := (target_eq_ok h).1
  rw [← h, FileTree.target, FileTree.target, directory, grows.directory p directory]

/-- A walk in a tree can be repeated when the tree has grown. -/
theorem Grows.walk (grows : t.Grows u) (h : t.walk p ps = .ok q) : u.walk p ps = .ok q := by
  induction ps generalizing p with
  | nil => exact h
  | cons part ps ih =>
    unfold FileTree.walk at h ⊢
    cases ht : t.target p part with
    | error e => simp [ht] at h
    | ok r =>
      by_cases found : (t.node? r).isSome
      · simp only [ht, found] at h
        simp only [grows.target ht, grows.present r found]
        exact ih h
      · simp [ht, found] at h

/-! ### New entries -/

/-- Where a path that does not end in a slash has room for a new entry: all parts but the last lead
to a directory, and the last from there to the place of the entry. -/
theorem newPlace_eq_ok_iff (named : (Path.parts path).getLast? ≠ some "") :
    t.newPlace path = .ok q ↔ objection? path = none ∧ ∃ before last dir,
      Path.parts path = before ++ [last] ∧ t.walk (t.start path) before = .ok dir ∧
      t.node? dir = some .directory ∧ t.target dir last = .ok q := by
  obtain ⟨before, last, hparts⟩ : ∃ before last, Path.parts path = before ++ [last] :=
    ⟨_, _, (List.dropLast_append_getLast (Path.parts_ne_nil path)).symm⟩
  have last_ne : last ≠ "" := by simpa [hparts] using named
  have reversed : (Path.parts path).reverse.dropWhile (· = "") = last :: before.reverse := by
    simp [hparts, last_ne]
  unfold newPlace parent
  rw [reversed]
  dsimp only
  rw [List.reverse_reverse]
  constructor
  · intro h
    cases ho : objection? path with
    | some e => simp [ho] at h
    | none =>
      cases hw : t.walk (t.start path) (before ++ ["."]) with
      | error e => simp [ho, hw] at h
      | ok dir =>
        simp only [ho, hw] at h
        obtain ⟨walked, directory⟩ := walk_concat_dot hw
        exact ⟨rfl, before, last, dir, hparts, walked, directory, h⟩
  · rintro ⟨ho, before', last', dir, hparts', walked, directory, ht⟩
    obtain ⟨rfl, rfl⟩ : before' = before ∧ last' = last := by
      simpa [hparts] using hparts'.symm
    have stays : t.walk (t.start path) (before' ++ ["."]) = .ok dir := by
      rw [walk_append, walked]
      simp [FileTree.walk, target, directory]
    simp only [ho, stays, ht]

theorem newPlace_eq_place (named : (Path.parts path).getLast? ≠ some "")
    (h : t.newPlace path = .ok q) : q = place t.here path := by
  obtain ⟨-, before, last, dir, hparts, walked, -, ht⟩ := (newPlace_eq_ok_iff named).1 h
  obtain ⟨-, rfl⟩ := target_eq_ok ht
  rw [place, hparts, Path.lead_append, walk_eq_lead walked]
  rfl

/-- Where there is room for an entry, the path leads to what is there. -/
theorem stat_of_newPlace (named : (Path.parts path).getLast? ≠ some "")
    (h : t.newPlace path = .ok q) :
    t.stat path = match t.node? q with
      | some n => .ok n
      | none => .error .noSuchFile := by
  obtain ⟨unobjected, before, last, dir, hparts, walked, -, ht⟩ := (newPlace_eq_ok_iff named).1 h
  rw [stat, resolve, unobjected, hparts, walk_append, walked]
  simp only [walk, ht]
  cases hq : t.node? q <;> simp [hq]

theorem Grows.newPlace (grows : t.Grows u) (named : (Path.parts path).getLast? ≠ some "")
    (h : t.newPlace path = .ok q) : u.newPlace path = .ok q := by
  obtain ⟨unobjected, before, last, dir, hparts, walked, directory, ht⟩ :=
    (newPlace_eq_ok_iff named).1 h
  have start : u.start path = t.start path := by rw [start, grows.here, start]
  refine (newPlace_eq_ok_iff named).2 ⟨unobjected, before, last, dir, hparts, ?_, ?_, ?_⟩
  · rw [start]
    exact grows.walk walked
  · exact grows.directory dir directory
  · exact grows.target ht

/-! ### Files -/

/-- The place for a file is one for a new entry whose last part is a name. -/
theorem destination_eq_ok (h : t.destination path = .ok q) :
    t.newPlace path = .ok q ∧ isStep ((Path.parts path).getLastD "") = false ∧
      t.node? q ≠ some .directory := by
  unfold destination at h
  unfold newPlace
  grind

theorem getLast?_ne_empty_of_name (h : isStep ((Path.parts path).getLastD "") = false) :
    (Path.parts path).getLast? ≠ some "" := by
  intro empty
  rw [List.getLastD_eq_getLast?, empty] at h
  exact absurd h (by decide)

/-- A file lies in a directory. -/
theorem exists_directory_of_destination (h : t.destination path = .ok q) :
    ∃ dir last, q = dir ++ [last] ∧ t.node? dir = some .directory := by
  obtain ⟨room, name, -⟩ := destination_eq_ok h
  obtain ⟨-, before, last, dir, hparts, -, directory, ht⟩ :=
    (newPlace_eq_ok_iff (getLast?_ne_empty_of_name name)).1 room
  rw [hparts, List.getLastD_concat] at name
  obtain ⟨-, rfl⟩ := target_eq_ok ht
  exact ⟨dir, last, Path.follow_name name dir, directory⟩

theorem read_eq_ok_iff_stat {content : List UInt8} :
    t.read path = .ok content ↔ t.stat path = .ok (.file content) := by
  unfold read
  rcases t.stat path with e | (bytes | _) <;> simp

theorem read_of_destination {content : List UInt8} (h : t.destination path = .ok q) :
    t.read path = .ok content ↔ t.node? q = some (.file content) := by
  obtain ⟨room, name, -⟩ := destination_eq_ok h
  rw [read_eq_ok_iff_stat, stat_of_newPlace (getLast?_ne_empty_of_name name) room]
  cases t.node? q <;> simp

/-- What is written to a file is what is read from it afterwards. -/
theorem read_write {append : Bool} {bytes : List UInt8} (h : t.write path append bytes = .ok u) :
    ∃ q, t.destination path = .ok q ∧ u = t.put q (.file (t.contentAfter q append bytes)) ∧
      u.read path = .ok (t.contentAfter q append bytes) := by
  unfold write at h
  cases hq : t.destination path with
  | error e => simp [hq] at h
  | ok q =>
    simp only [hq, Except.ok.injEq] at h
    subst h
    refine ⟨q, rfl, rfl, ?_⟩
    obtain ⟨room, name, free⟩ := destination_eq_ok hq
    obtain ⟨dir, last, rfl, -⟩ := exists_directory_of_destination hq
    have named := getLast?_ne_empty_of_name name
    have grows := Grows.put (n := .file (t.contentAfter (dir ++ [last]) append bytes)) (by simp) free
    rw [read_eq_ok_iff_stat, stat_of_newPlace named (grows.newPlace named room),
      node?_put (by simp)]
    simp

theorem read_write_replace {bytes : List UInt8} (h : t.write path false bytes = .ok u) :
    u.read path = .ok bytes := by
  obtain ⟨q, -, -, hr⟩ := read_write h
  exact hr

/-- Appended bytes come after those that could be read before, if there were any. -/
theorem read_write_append {bytes : List UInt8} (h : t.write path true bytes = .ok u) :
    (∀ old, t.read path = .ok old → u.read path = .ok (old ++ bytes)) ∧
      ((∀ old, t.read path ≠ .ok old) → u.read path = .ok bytes) := by
  obtain ⟨q, hq, -, hr⟩ := read_write h
  rw [hr]
  unfold contentAfter
  refine ⟨fun old hold => ?_, fun none => ?_⟩
  · rw [(read_of_destination hq).1 hold]
  · rcases hn : t.node? q with _ | (old | _)
    · rfl
    · exact absurd ((read_of_destination hq).2 hn) (none old)
    · rfl

/-! ### Well-formed trees -/

theorem WellFormed.put {dir : Place} {last : String} (wf : t.WellFormed)
    (directory : t.node? dir = some .directory)
    (free : t.node? (dir ++ [last]) ≠ some .directory) : (t.put (dir ++ [last]) n).WellFormed := by
  have grows := Grows.put (n := n) (by simp) free
  refine ⟨fun p part m h => ?_, grows.directory _ wf.here⟩
  apply grows.directory
  rw [node?_put (by simp)] at h
  by_cases same : p ++ [part] = dir ++ [last]
  · obtain ⟨rfl, -⟩ : p = dir ∧ part = last := by simpa using same
    exact directory
  · rw [if_neg same] at h
    exact wf.parent p part m h

theorem WellFormed.write {append : Bool} {bytes : List UInt8} (wf : t.WellFormed)
    (h : t.write path append bytes = .ok u) : u.WellFormed := by
  obtain ⟨q, hq, rfl, -⟩ := read_write h
  obtain ⟨dir, last, rfl, directory⟩ := exists_directory_of_destination hq
  exact wf.put directory (destination_eq_ok hq).2.2

/-- A path to a file ends in a name, and its other parts lead to the directory of the file. -/
theorem exists_of_read {content : List UInt8} (wf : t.WellFormed) (h : t.read path = .ok content) :
    ∃ last, t.node? (lead (t.start path) (Path.parts path).dropLast ++ [last]) =
      some (.file content) := by
  obtain ⟨before, last, hparts⟩ : ∃ before last, Path.parts path = before ++ [last] :=
    ⟨_, _, (List.dropLast_append_getLast (Path.parts_ne_nil path)).symm⟩
  rw [read_eq_ok_iff_stat, stat, resolve, hparts, walk_append] at h
  rw [hparts, List.dropLast_concat]
  cases hw : t.walk (t.start path) before with
  | error e => cases ho : objection? path <;> simp [hw, ho] at h
  | ok dir =>
    cases ht : t.target dir last with
    | error e => cases ho : objection? path <;> simp [hw, ho, walk, ht] at h
    | ok q =>
      have found : t.node? q = some (.file content) := by
        cases ho : objection? path <;> cases hq : t.node? q <;> simp_all [walk]
      obtain ⟨directory, rfl⟩ := target_eq_ok ht
      cases step : isStep last with
      | true =>
        -- such a part would lead to a directory
        have above := wf.directory_of_prefix directory (Path.follow_prefix step dir)
        rw [above] at found
        cases found
      | false =>
        refine ⟨last, ?_⟩
        rwa [← walk_eq_lead hw, ← Path.follow_name step]

/-! ### Making directories -/

/-- A tree that has what another has, and besides only directories. -/
structure Adds (t u : FileTree) : Prop where
  here : u.here = t.here
  node : ∀ p, u.node? p = t.node? p ∨ t.node? p = none ∧ u.node? p = some .directory

theorem Adds.refl (t : FileTree) : t.Adds t := ⟨rfl, fun _ => .inl rfl⟩

theorem Adds.trans (h : t.Adds u) (h' : u.Adds v) : t.Adds v := by
  refine ⟨h'.here.trans h.here, fun p => ?_⟩
  have first := h.node p
  have second := h'.node p
  grind

theorem Adds.file {content : List UInt8} (h : t.Adds u) (hf : u.node? p = some (.file content)) :
    t.node? p = some (.file content) := by
  have := h.node p
  grind

/-- A path that is the root or does not end in a slash. -/
def Named (path : String) : Prop := path = "/" ∨ (Path.parts path).getLast? ≠ some ""

/-- There is no place for the root as a new entry. -/
theorem Named.getLast?_ne_empty (named : Named path) (h : t.newPlace path = .ok q) :
    (Path.parts path).getLast? ≠ some "" := by
  refine named.resolve_left ?_
  rintro rfl
  exact absurd h nofun

/-- Making a directory changes nothing, or adds a directory where nothing was. -/
theorem makeDirectory_cases (wf : t.WellFormed) (named : Named path)
    (h : t.makeDirectory path = .ok u) :
    u = t ∨ ∃ dir last, place t.here path = dir ++ [last] ∧ t.node? (dir ++ [last]) = none ∧
      t.node? dir = some .directory ∧ u = t.put (dir ++ [last]) .directory := by
  unfold makeDirectory at h
  rcases hstat : t.stat path with e | (content | _)
  · cases hq : t.newPlace path with
    | error e => simp [hstat, hq] at h
    | ok q =>
      obtain rfl : t.put q .directory = u := by simpa [hstat, hq] using h
      have named := named.getLast?_ne_empty hq
      have nothing : t.node? q = none := by
        rw [stat_of_newPlace named hq] at hstat
        cases hn : t.node? q <;> simp_all
      have leads := newPlace_eq_place named hq
      obtain ⟨-, before, last, dir, -, -, directory, ht⟩ := (newPlace_eq_ok_iff named).1 hq
      obtain ⟨-, rfl⟩ := target_eq_ok ht
      cases step : isStep last with
      | true =>
        rw [wf.directory_of_prefix directory (Path.follow_prefix step dir)] at nothing
        cases nothing
      | false =>
        rw [Path.follow_name step] at leads nothing ⊢
        exact .inr ⟨dir, last, leads.symm, nothing, directory, rfl⟩
  · simp [hstat] at h
  · exact .inl (by simpa [hstat] using h.symm)

theorem WellFormed.makeDirectory (wf : t.WellFormed) (named : Named path)
    (h : t.makeDirectory path = .ok u) : u.WellFormed ∧ t.Adds u := by
  obtain rfl | ⟨dir, last, -, nothing, directory, rfl⟩ := makeDirectory_cases wf named h
  · exact ⟨wf, .refl u⟩
  · refine ⟨wf.put directory (by simp [nothing]), rfl, fun p => ?_⟩
    rw [node?_put (by simp)]
    by_cases same : p = dir ++ [last] <;> simp [same, nothing]

theorem WellFormed.makeAll {paths : List String} (wf : t.WellFormed)
    (named : ∀ path ∈ paths, Named path) :
    (t.makeAll paths).1.WellFormed ∧ t.Adds (t.makeAll paths).1 := by
  induction paths generalizing t with
  | nil => exact ⟨wf, .refl t⟩
  | cons path paths ih =>
    rw [FileTree.makeAll]
    cases hm : t.makeDirectory path with
    | error f => exact ⟨wf, .refl t⟩
    | ok u =>
      obtain ⟨wf', first⟩ := wf.makeDirectory (named path List.mem_cons_self) hm
      obtain ⟨wf'', others⟩ := ih wf' fun path hp => named path (List.mem_cons_of_mem _ hp)
      exact ⟨wf'', first.trans others⟩

/-- Where all directories are there, making them changes nothing. -/
theorem makeAll_of_present {paths : List String} (wf : t.WellFormed)
    (named : ∀ path ∈ paths, Named path)
    (present : ∀ path ∈ paths, t.node? (place t.here path) ≠ none) : (t.makeAll paths).1 = t := by
  induction paths with
  | nil => rfl
  | cons path paths ih =>
    rw [makeAll]
    cases hm : t.makeDirectory path with
    | error f => rfl
    | ok u =>
      have same : u = t := by
        refine (makeDirectory_cases wf (named path List.mem_cons_self) hm).resolve_right ?_
        rintro ⟨dir, last, leads, nothing, -⟩
        exact present path List.mem_cons_self (leads ▸ nothing)
      subst same
      exact ih (fun path hp => named path (List.mem_cons_of_mem _ hp))
        fun path hp => present path (List.mem_cons_of_mem _ hp)

theorem named_of_mem_stages {stage : String} (h : stage ∈ Path.stages (Path.directory path)) :
    Named stage :=
  (Path.place_of_mem_stages h []).1

theorem makeParent_fst (t : FileTree) (path : String) :
    (t.makeParent path).1 = t ∨
      (t.makeParent path).1 = (t.makeAll (Path.stages (Path.directory path))).1 := by
  unfold makeParent makeDirectories
  dsimp only
  split
  · exact .inl rfl
  · rcases t.makeAll (Path.stages (Path.directory path)) with ⟨u, _ | f⟩ <;> exact .inr rfl

theorem WellFormed.makeParent (wf : t.WellFormed) (path : String) :
    (t.makeParent path).1.WellFormed ∧ t.Adds (t.makeParent path).1 := by
  obtain same | all := makeParent_fst t path
  · rw [same]
    exact ⟨wf, .refl t⟩
  · rw [all]
    exact wf.makeAll fun stage hs => named_of_mem_stages hs

/-- The way to a directory that is there need not be made. -/
theorem makeParent_of_directory (wf : t.WellFormed)
    (directory : t.node? (lead (t.start path) (Path.parts path).dropLast) = some .directory) :
    (t.makeParent path).1 = t := by
  obtain same | all := makeParent_fst t path
  · exact same
  · rw [all]
    refine makeAll_of_present wf (fun stage hs => named_of_mem_stages hs) fun stage hs => ?_
    have found : t.node? (place t.here stage) = some .directory := by
      obtain above | above := (Path.place_of_mem_stages hs t.here).2
      · exact wf.directory_of_prefix wf.here above
      · exact wf.directory_of_prefix directory above
    simp [found]

/-- Making the directories on the way to a file neither hides the file nor brings one to light. -/
theorem read_makeParent (wf : t.WellFormed) (path : String) {content : List UInt8} :
    (t.makeParent path).1.read path = .ok content ↔ t.read path = .ok content := by
  obtain ⟨wf', adds⟩ := wf.makeParent path
  constructor
  · intro h
    obtain ⟨last, found⟩ := exists_of_read wf' h
    have start : (t.makeParent path).1.start path = t.start path := by
      rw [start, adds.here, start]
    rw [start] at found
    have directory := wf.parent _ _ _ (adds.file found)
    rwa [makeParent_of_directory wf directory] at h
  · intro h
    obtain ⟨last, found⟩ := exists_of_read wf h
    rwa [makeParent_of_directory wf (wf.parent _ _ _ found)]

end StackMachine.FileTree
