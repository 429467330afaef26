import StackMachine.Proofs.SavedPrograms

/-!
# What changes in a tree

Which places of a tree an operation may change, and what may become of them. Everything else stays,
so files elsewhere can be read as before. Saving a program adds the directories on the way to the
file and writes the file; a save that fails writes no file.
-/

namespace StackMachine

/-- The place is on the way from the root to the directory that a path leads into. -/
def Path.IsOnWay (here : Place) (path : String) (q : Place) : Prop :=
  q <+: Path.lead (Path.origin here path) (Path.parts path).dropLast

namespace FileTree

open StackMachine.Path (place IsOnWay)

variable {t u v : FileTree} {q : Place} {path : String} {content bytes : List UInt8}
  {append : Bool} {dirs files dirs' files' : Place → Prop}

/-- What may become of a place: nothing else, a directory where nothing was, or a file where no
directory was. -/
inductive Change (isDir isFile : Prop) : Option Node → Option Node → Prop where
  | same (n : Option Node) : Change isDir isFile n n
  | directory : isDir → Change isDir isFile none (some .directory)
  | file {n : Option Node} {content : List UInt8} : isFile → n ≠ some .directory →
      Change isDir isFile n (some (.file content))

/-- The second tree is the first but for new directories at places of `dirs` and for files at places
of `files`, which are new or hold something else. -/
structure Changes (dirs files : Place → Prop) (t u : FileTree) : Prop where
  here : u.here = t.here
  node : ∀ q, Change (dirs q) (files q) (t.node? q) (u.node? q)

/-! ### One place -/

section Change

variable {isDir isFile isDir' isFile' : Prop} {a b c : Option Node}

theorem Change.mono (h : Change isDir isFile a b) (dir : isDir → isDir')
    (file : isFile → isFile') : Change isDir' isFile' a b := by
  cases h with
  | same => exact .same a
  | directory isDir => exact .directory (dir isDir)
  | file isFile free => exact .file (file isFile) free

/-- A directory does not become a file, and nothing that is there becomes a directory. -/
theorem Change.trans (h : Change isDir isFile a b) (h' : Change isDir isFile b c) :
    Change isDir isFile a c := by
  cases h' with
  | same => exact h
  | directory isDir =>
    cases h with
    | same => exact .directory isDir
  | file isFile free =>
    cases h with
    | same => exact .file isFile free
    | directory => exact absurd rfl free
    | file _ before => exact .file isFile before

end Change

/-! ### Whole trees -/

theorem Changes.refl (t : FileTree) : Changes dirs files t t := ⟨rfl, fun q => .same (t.node? q)⟩

theorem Changes.mono (h : Changes dirs files t u) (dir : ∀ q, dirs q → dirs' q)
    (file : ∀ q, files q → files' q) : Changes dirs' files' t u :=
  ⟨h.here, fun q => (h.node q).mono (dir q) (file q)⟩

theorem Changes.trans (h : Changes dirs files t u) (h' : Changes dirs files u v) :
    Changes dirs files t v :=
  ⟨h'.here.trans h.here, fun q => (h.node q).trans (h'.node q)⟩

theorem Changes.grows (h : Changes dirs files t u) : t.Grows u := by
  refine ⟨h.here, fun q directory => ?_, fun q present => ?_⟩
  · have change := h.node q
    rw [directory] at change
    generalize u.node? q = n at change
    cases change with
    | same => rfl
    | file _ free => exact absurd rfl free
  · have change := h.node q
    generalize t.node? q = n at change present
    generalize u.node? q = n' at change
    cases change with
    | same => exact present
    | directory | file => rfl

/-- What a path leads to is found by walking its parts. -/
theorem stat_eq_ok_iff_place {n : Node} : t.stat path = .ok n ↔ objection? path = none ∧
    t.walk (t.start path) (Path.parts path) = .ok (place t.here path) ∧
    t.node? (place t.here path) = some n := by
  rw [stat, resolve]
  cases objection? path with
  | some e => simp
  | none =>
    cases walked : t.walk (t.start path) (Path.parts path) with
    | error e => simp
    | ok q =>
      obtain rfl : q = place t.here path := walk_eq_lead walked
      cases node : t.node? (place t.here path) <;> simp [node]

/-- A file can be read if the parts of its path can be walked. -/
theorem read_eq_ok_iff_place : t.read path = .ok content ↔ objection? path = none ∧
    t.walk (t.start path) (Path.parts path) = .ok (place t.here path) ∧
    t.node? (place t.here path) = some (.file content) :=
  read_eq_ok_iff_stat.trans stat_eq_ok_iff_place

/-- A file that was not to be written can be read as before. -/
theorem Changes.read (h : Changes dirs files t u) (found : t.read path = .ok content)
    (other : ¬ files (place t.here path)) : u.read path = .ok content := by
  obtain ⟨unobjected, walked, node⟩ := read_eq_ok_iff_place.1 found
  have start : u.start path = t.start path := by rw [start, h.here, start]
  refine read_eq_ok_iff_place.2 ⟨unobjected, ?_, ?_⟩
  · rw [start, h.here]
    exact h.grows.walk walked
  · have change := h.node (place t.here path)
    rw [node] at change
    rw [h.here]
    generalize u.node? (place t.here path) = n at change
    cases change with
    | same => rfl
    | file written => exact absurd written other

/-! ### Operations -/

theorem changes_write (h : t.write path append bytes = .ok u) :
    Changes dirs (· = place t.here path) t u := by
  obtain ⟨q, hq, rfl, -⟩ := read_write h
  obtain ⟨room, name, free⟩ := destination_eq_ok hq
  have there : q = place t.here path := newPlace_eq_place (getLast?_ne_empty_of_name name) room
  obtain ⟨dir, last, rfl, -⟩ := exists_directory_of_destination hq
  refine ⟨rfl, fun q => ?_⟩
  rw [node?_put (by simp)]
  split
  next same =>
    rw [same]
    exact .file there free
  · exact .same _

theorem WellFormed.changes_makeAll {paths : List String} (wf : t.WellFormed)
    (named : ∀ path ∈ paths, Named path)
    (within : ∀ path ∈ paths, t.node? (place t.here path) = none → dirs (place t.here path)) :
    Changes dirs files t (t.makeAll paths).1 := by
  induction paths generalizing t with
  | nil => exact .refl t
  | cons path paths ih =>
    obtain ⟨named_first, named⟩ := List.forall_mem_cons.1 named
    obtain ⟨within_first, within⟩ := List.forall_mem_cons.1 within
    rw [FileTree.makeAll]
    cases made : t.makeDirectory path with
    | error f => exact .refl t
    | ok u =>
      obtain ⟨wf', adds⟩ := wf.makeDirectory named_first made
      have first : Changes dirs files t u := by
        obtain rfl | ⟨dir, last, leads, nothing, -, rfl⟩ := makeDirectory_cases wf named_first made
        · exact .refl u
        · refine ⟨rfl, fun q => ?_⟩
          rw [node?_put (by simp)]
          split
          next same =>
            rw [same, nothing]
            exact .directory (leads ▸ within_first (leads ▸ nothing))
          · exact .same _
      refine first.trans (ih wf' named fun path mem nothing => ?_)
      rw [adds.here] at nothing ⊢
      have before := adds.node (place t.here path)
      exact within path mem (by grind)

/-- Directories are made only on the way to the file. -/
theorem WellFormed.changes_makeParent (wf : t.WellFormed) (path : String) :
    Changes (IsOnWay t.here path) files t (t.makeParent path).1 := by
  obtain same | all := makeParent_fst t path
  · rw [same]
    exact .refl t
  · rw [all]
    refine wf.changes_makeAll (fun stage mem => named_of_mem_stages mem) fun stage mem nothing => ?_
    obtain above | along := (Path.place_of_mem_stages mem t.here).2
    · rw [wf.directory_of_prefix wf.here above] at nothing
      cases nothing
    · exact along

/-! ### Saving programs -/

variable {p : Program} {mode : SaveMode} {f : Failure}

theorem writeProgram_eq_iff : t.writeProgram path append bytes = (u, none) ↔
    t.write path append bytes = .ok u := by
  unfold writeProgram
  cases t.write path append bytes <;> simp

theorem fst_of_writeProgram_failed (h : t.writeProgram path append bytes = (u, some f)) :
    u = t := by
  unfold writeProgram at h
  cases written : t.write path append bytes with
  | ok v => simp [written] at h
  | error g => simpa [written, eq_comm] using congrArg Prod.fst h

/-- A program that is saved is encoded and written once its directory is there. -/
theorem write_of_saveProgram (h : t.saveProgram path p mode = (u, none)) :
    ∃ d, p.encode = .ok d ∧ (mode = .append ∨ mode = .truncate) ∧
      (t.makeParent path).1.write path (mode = .append) d = .ok u := by
  unfold saveProgram at h
  cases encoded : p.encode with
  | error e => simp [encoded] at h
  | ok d =>
    rcases parent : t.makeParent path with ⟨v, _ | g⟩
    · simp only [encoded, parent] at h
      cases mode with
      | append => exact ⟨d, rfl, .inl rfl, writeProgram_eq_iff.1 h⟩
      | truncate => exact ⟨d, rfl, .inr rfl, writeProgram_eq_iff.1 h⟩
      | other code => simp at h
    · simp [encoded, parent] at h

/-- A save that fails makes directories at most. -/
theorem fst_of_saveProgram_failed (h : t.saveProgram path p mode = (u, some f)) :
    u = t ∨ u = (t.makeParent path).1 := by
  unfold saveProgram at h
  cases encoded : p.encode with
  | error e => exact .inl (by simpa [encoded, eq_comm] using congrArg Prod.fst h)
  | ok d =>
    refine .inr ?_
    rcases parent : t.makeParent path with ⟨v, _ | g⟩
    · simp only [encoded, parent] at h
      cases mode with
      | append | truncate => exact fst_of_writeProgram_failed h
      | other code => simpa [eq_comm] using congrArg Prod.fst h
    · simpa [encoded, parent, eq_comm] using congrArg Prod.fst h

theorem WellFormed.changes_saveProgram (wf : t.WellFormed)
    (h : t.saveProgram path p mode = (u, none)) :
    Changes (IsOnWay t.here path) (· = place t.here path) t u := by
  obtain ⟨d, -, -, written⟩ := write_of_saveProgram h
  have parent : Changes (IsOnWay t.here path) (· = place t.here path) t (t.makeParent path).1 :=
    wf.changes_makeParent path
  refine parent.trans ?_
  rw [← parent.here]
  exact changes_write written

theorem WellFormed.changes_saveProgram_failed (wf : t.WellFormed)
    (h : t.saveProgram path p mode = (u, some f)) : Changes (IsOnWay t.here path) files t u := by
  obtain rfl | rfl := fst_of_saveProgram_failed h
  · exact .refl u
  · exact wf.changes_makeParent path

/-- Bytes have been saved to a file: they replace what it held, or follow it. -/
structure Received (t : FileTree) (path : String) (replaces : Prop) (bytes : List UInt8)
    (u : FileTree) : Prop where
  replaced : replaces → u.read path = .ok bytes
  behind : ¬ replaces → ∀ old, t.read path = .ok old → u.read path = .ok (old ++ bytes)
  alone : (∀ old, t.read path ≠ .ok old) → u.read path = .ok bytes

/-- What has been received stays for as long as the file does. -/
theorem Received.later {replaces : Prop} (h : Received t path replaces bytes u)
    (stays : ∀ content, u.read path = .ok content → v.read path = .ok content) :
    Received t path replaces bytes v where
  replaced yes := stays _ (h.replaced yes)
  behind no old found := stays _ (h.behind no old found)
  alone missing := stays _ (h.alone missing)

theorem WellFormed.received (wf : t.WellFormed) (h : t.saveProgram path p mode = (u, none)) :
    ∃ d, p.encode = .ok d ∧ Received t path (mode = .truncate) d u := by
  obtain ⟨d, encoded, known, written⟩ := write_of_saveProgram h
  refine ⟨d, encoded, ?_⟩
  obtain rfl | rfl := known
  · obtain ⟨behind, alone⟩ := read_write_append written
    refine ⟨nofun, fun _ old found => ?_, fun missing => ?_⟩
    · exact behind old ((read_makeParent wf path).2 found)
    · exact alone fun old found => missing old ((read_makeParent wf path).1 found)
  · have replaced := read_write_replace written
    exact ⟨fun _ => replaced, fun no => absurd rfl no, fun _ => replaced⟩

end FileTree

end StackMachine
