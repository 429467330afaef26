import StackMachine.Proofs.FileTrees
import StackMachine.Proofs.ProgramSequences

/-!
# Saved programs

What a file holds after programs have been saved to it, some appended and some in place of all that
was there. A request that is refused for its program or its mode leaves the content of the file as
it was, although a mode is looked at only after directories have been made.
-/

namespace StackMachine

structure Save where
  program : Program
  mode : SaveMode
  deriving DecidableEq, Repr

namespace Save

/-- The request is refused neither for its program nor for its mode. -/
def Accepted (s : Save) : Prop :=
  (∀ i ∈ s.program, i.tag < 10) ∧ (s.mode = .append ∨ s.mode = .truncate)

instance (s : Save) : Decidable s.Accepted :=
  inferInstanceAs (Decidable ((∀ i ∈ s.program, i.tag < 10) ∧ _))

/-- The programs of a file after a request, given those before it. -/
def apply (ps : List Program) (s : Save) : List Program :=
  if s.mode = .truncate then [s.program] else ps ++ [s.program]

/-- The programs of a file after requests of which only the accepted ones have an effect. -/
def applyAll (ps : List Program) (saves : List Save) : List Program :=
  (saves.filter (·.Accepted)).foldl apply ps

theorem foldl_apply_of_append {saves : List Save} (h : ∀ s ∈ saves, s.mode = .append)
    (ps : List Program) : saves.foldl apply ps = ps ++ saves.map (·.program) := by
  induction saves generalizing ps with
  | nil => simp
  | cons s saves ih =>
    obtain ⟨mode, others⟩ := List.forall_mem_cons.1 h
    rw [List.foldl_cons, ih others, apply, mode]
    simp

/-- What was there before the last replacement does not matter. -/
theorem foldl_apply_of_truncate {before after : List Save} {s : Save} (mode : s.mode = .truncate)
    (h : ∀ a ∈ after, a.mode = .append) (ps : List Program) :
    (before ++ s :: after).foldl apply ps = s.program :: after.map (·.program) := by
  rw [List.foldl_append, List.foldl_cons, foldl_apply_of_append h, apply, if_pos mode]
  rfl

end Save

namespace FileTree

variable {t u : FileTree} {path : String} {ps : List Program} {s : Save} {saves : List Save}

def save (t : FileTree) (path : String) (s : Save) : FileTree × Option Failure :=
  t.saveProgram path s.program s.mode

/-- The tree after programs have been saved to one path. -/
def saveAll (t : FileTree) (path : String) (saves : List Save) : FileTree :=
  saves.foldl (fun t s => (t.save path s).1) t

/-- No request fails because the system refuses an operation. -/
def Undisturbed (path : String) : FileTree → List Save → Prop
  | _, [] => True
  | t, s :: saves =>
    (t.save path s).2.map Failure.kind ≠ some .fileSystem ∧
      Undisturbed path (t.save path s).1 saves

/-- The content of the file is a concatenation of encodings of the programs. Without such a file
there are no programs. -/
def Holds (t : FileTree) (path : String) (ps : List Program) : Prop :=
  (∃ ds, List.Forall₂ Program.Encodes ds ps ∧ t.read path = .ok ds.flatten) ∨
    ps = [] ∧ ∀ content, t.read path ≠ .ok content

/-! ### One request -/

/-- A refused request does nothing, or makes directories. -/
theorem save_of_refused (refused : ¬ s.Accepted) :
    (t.save path s).1 = t ∨
      (t.save path s).1 = (t.makeParent path).1 := by
  unfold save saveProgram
  cases he : s.program.encode with
  | error e => exact .inl rfl
  | ok d =>
    refine .inr ?_
    have inSet := (Program.encode_eq_ok_iff.1 he).1
    rcases t.makeParent path with ⟨u, _ | f⟩
    · cases mode : s.mode with
      | append => exact absurd ⟨inSet, .inl mode⟩ refused
      | truncate => exact absurd ⟨inSet, .inr mode⟩ refused
      | other code => rfl
    · rfl

theorem read_save_of_refused (wf : t.WellFormed) (refused : ¬ s.Accepted)
    {content : List UInt8} :
    (t.save path s).1.read path = .ok content ↔
      t.read path = .ok content := by
  obtain same | same := save_of_refused refused
  · rw [same]
  · rw [same]
    exact read_makeParent wf path

theorem kind_fileSystem (phase : Phase) (detail : String) (cause : Option Failure) :
    (Failure.fileSystem phase detail cause).kind = .fileSystem := by
  cases cause <;> rfl

theorem kind_of_makeParent {f : Failure} (h : (t.makeParent path).2 = some f) :
    f.kind = .fileSystem := by
  unfold makeParent at h
  dsimp only at h
  split at h
  · simp at h
  · rcases hm : t.makeDirectories (Path.directory path) with ⟨u, _ | g⟩
    · simp [hm] at h
    · simp only [hm, Option.some.injEq] at h
      rw [← h, kind_fileSystem]

theorem write_of_writeProgram {append : Bool} {bytes : List UInt8}
    (calm : (t.writeProgram path append bytes).2.map Failure.kind ≠ some .fileSystem) :
    t.write path append bytes = .ok (t.writeProgram path append bytes).1 := by
  unfold writeProgram at calm ⊢
  cases hw : t.write path append bytes with
  | ok u => rfl
  | error f => simp [hw, kind_fileSystem] at calm

/-- An accepted request makes directories and writes the encoding of its program. -/
theorem save_of_accepted (accepted : s.Accepted)
    (calm : (t.save path s).2.map Failure.kind ≠ some .fileSystem) :
    ∃ d, s.program.encode = .ok d ∧ (t.makeParent path).1.write path (s.mode = .append) d =
      .ok (t.save path s).1 := by
  obtain ⟨inSet, mode⟩ := accepted
  have he := Program.encode_eq_ok_iff.2 ⟨inSet, rfl⟩
  refine ⟨_, he, ?_⟩
  unfold save saveProgram at calm ⊢
  rcases hp : t.makeParent path with ⟨u, _ | f⟩
  · obtain mode | mode := mode
    · simp only [he, hp, mode] at calm ⊢
      exact write_of_writeProgram calm
    · simp only [he, hp, mode] at calm ⊢
      exact write_of_writeProgram calm
  · have kind := kind_of_makeParent (congrArg Prod.snd hp)
    simp [he, hp, kind] at calm

theorem WellFormed.save (wf : t.WellFormed)
    (calm : (t.save path s).2.map Failure.kind ≠ some .fileSystem) :
    (t.save path s).1.WellFormed := by
  have parent := (wf.makeParent path).1
  by_cases accepted : s.Accepted
  · obtain ⟨d, -, written⟩ := save_of_accepted accepted calm
    exact parent.write written
  · have cases : (t.save path s).1 = t ∨ (t.save path s).1 = (t.makeParent path).1 :=
      save_of_refused accepted
    obtain same | same := cases
    · rwa [same]
    · rwa [same]

/-- After an accepted request the file is there and holds its program, alone or after the others. -/
theorem Holds.save_of_accepted (h : t.Holds path ps) (wf : t.WellFormed)
    (accepted : s.Accepted) (short : s.program.length < 2 ^ 32)
    (calm : (t.save path s).2.map Failure.kind ≠ some .fileSystem) :
    ∃ ds, List.Forall₂ Program.Encodes ds (s.apply ps) ∧
      (t.save path s).1.read path = .ok ds.flatten := by
  obtain ⟨d, he, written⟩ := FileTree.save_of_accepted accepted calm
  have encoded := Program.encodes_of_encode he short
  obtain mode | mode := accepted.2
  · have added : s.apply ps = ps ++ [s.program] := by simp [Save.apply, mode]
    rw [added]
    rw [mode, decide_eq_true rfl] at written
    obtain ⟨behind, alone⟩ := read_write_append written
    obtain ⟨ds, encodings, content⟩ | ⟨rfl, missing⟩ := h
    · refine ⟨ds ++ [d], List.rel_append encodings (.cons encoded .nil), ?_⟩
      rw [behind _ ((read_makeParent wf path).2 content)]
      simp
    · refine ⟨[d], .cons encoded .nil, ?_⟩
      rw [alone fun old hold => missing old ((read_makeParent wf path).1 hold)]
      simp
  · have replaced : s.apply ps = [s.program] := by simp [Save.apply, mode]
    rw [replaced]
    rw [mode, decide_eq_false nofun] at written
    refine ⟨[d], .cons encoded .nil, ?_⟩
    rw [read_write_replace written]
    simp

theorem Holds.save_of_refused (h : t.Holds path ps) (wf : t.WellFormed)
    (refused : ¬ s.Accepted) : (t.save path s).1.Holds path ps := by
  obtain ⟨ds, encodings, content⟩ | ⟨rfl, missing⟩ := h
  · exact .inl ⟨ds, encodings, (read_save_of_refused wf refused).2 content⟩
  · refine .inr ⟨rfl, fun content found => ?_⟩
    exact missing content ((read_save_of_refused wf refused).1 found)

/-! ### Any number of requests -/

theorem saveAll_cons (t : FileTree) (path : String) (s : Save) (saves : List Save) :
    t.saveAll path (s :: saves) =
      (t.save path s).1.saveAll path saves := rfl

theorem saveAll_concat (t : FileTree) (path : String) (saves : List Save) (s : Save) :
    t.saveAll path (saves ++ [s]) =
      ((t.saveAll path saves).save path s).1 := by
  simp [saveAll]

theorem undisturbed_append {before after : List Save} :
    t.Undisturbed path (before ++ after) ↔
      t.Undisturbed path before ∧ (t.saveAll path before).Undisturbed path after := by
  induction before generalizing t with
  | nil => simp [Undisturbed, saveAll]
  | cons s before ih => simp [Undisturbed, saveAll_cons, ih, and_assoc]

theorem WellFormed.saveAll (wf : t.WellFormed) (calm : t.Undisturbed path saves) :
    (t.saveAll path saves).WellFormed := by
  induction saves generalizing t with
  | nil => exact wf
  | cons s saves ih => exact ih (wf.save calm.1) calm.2

/-- Requests keep the file to the programs that those that are accepted ask for. -/
theorem Holds.saveAll (h : t.Holds path ps) (wf : t.WellFormed)
    (short : ∀ s ∈ saves, s.program.length < 2 ^ 32) (calm : t.Undisturbed path saves) :
    (t.saveAll path saves).Holds path (Save.applyAll ps saves) := by
  induction saves generalizing t ps with
  | nil => exact h
  | cons s saves ih =>
    obtain ⟨first, others⟩ := List.forall_mem_cons.1 short
    have wf' := wf.save calm.1
    rw [saveAll_cons, Save.applyAll]
    by_cases accepted : s.Accepted
    · rw [List.filter_cons_of_pos (by simpa using accepted), List.foldl_cons]
      exact ih (.inl (h.save_of_accepted wf accepted first calm.1)) wf' others calm.2
    · rw [List.filter_cons_of_neg (by simpa using accepted)]
      exact ih (h.save_of_refused wf accepted) wf' others calm.2

theorem exists_read_saveAll_iff (wf : t.WellFormed) (h : t.Holds path ps)
    (short : ∀ s ∈ saves, s.program.length < 2 ^ 32) (calm : t.Undisturbed path saves) :
    (∃ content, (t.saveAll path saves).read path = .ok content) ↔
      (∃ content, t.read path = .ok content) ∨ saves.filter (·.Accepted) ≠ [] := by
  induction saves generalizing t ps with
  | nil => simp [saveAll]
  | cons s saves ih =>
    obtain ⟨first, others⟩ := List.forall_mem_cons.1 short
    have wf' := wf.save calm.1
    rw [saveAll_cons]
    by_cases accepted : s.Accepted
    · obtain ⟨ds, encodings, content⟩ := h.save_of_accepted wf accepted first calm.1
      rw [ih wf' (.inl ⟨ds, encodings, content⟩) others calm.2]
      simp [accepted, content]
    · rw [ih wf' (h.save_of_refused wf accepted) others calm.2]
      simp [accepted, read_save_of_refused wf accepted]

theorem Holds.loadPrograms (h : t.Holds path ps) {content : List UInt8}
    (found : t.read path = .ok content) : t.loadPrograms path = .ok ps := by
  obtain ⟨ds, encodings, held⟩ | ⟨-, missing⟩ := h
  · have decoded := Program.decodeAll_eq_ok_iff.2 ⟨ds, encodings, rfl⟩
    simp [FileTree.loadPrograms, contentFor, held, decoded]
  · exact absurd found (missing content)

/-- After any requests to save programs, a file that is there holds the last program that replaced
the others and those appended after it, or, if none did, the first programs and all those appended.
Refused requests change nothing about it. -/
theorem load_after_saves (t : FileTree) (wf : t.WellFormed) (path : String) (ps : List Program)
    (initial : t.Holds path ps) (saves : List Save)
    (short : ∀ s ∈ saves, s.program.length < 2 ^ 32) (calm : t.Undisturbed path saves) :
    let u := t.saveAll path saves
    let accepted := saves.filter (·.Accepted)
    (∀ content, u.read path = .ok content → ∃ qs, u.loadPrograms path = .ok qs ∧
      ((∀ s ∈ accepted, s.mode = .append) → qs = ps ++ accepted.map (·.program)) ∧
      (∀ before s after, accepted = before ++ s :: after → s.mode = .truncate →
        (∀ a ∈ after, a.mode = .append) → qs = s.program :: after.map (·.program)) ∧
      (∀ q rest, qs = q :: rest → u.loadEncoded path = .ok q) ∧
      (qs = [] → ∃ f r, u.loadEncoded path = .error f ∧ f.report? = some r ∧
        r.kind = .truncated ∧ r.phase = .load)) ∧
    ((∃ content, u.read path = .ok content) ↔
      (∃ content, t.read path = .ok content) ∨ accepted ≠ []) ∧
    ∀ before s after, saves = before ++ s :: after → ¬ s.Accepted → ∀ content,
      (t.saveAll path (before ++ [s])).read path = .ok content ↔
        (t.saveAll path before).read path = .ok content := by
  intro u accepted
  refine ⟨fun content found => ?_, exists_read_saveAll_iff wf initial short calm, ?_⟩
  · have loaded : u.loadPrograms path = .ok (Save.applyAll ps saves) :=
      (initial.saveAll wf short calm).loadPrograms found
    refine ⟨_, loaded, ?_, ?_, ?_, ?_⟩
    · intro appended
      exact Save.foldl_apply_of_append appended ps
    · intro before s after split replaced appended
      rw [Save.applyAll, show saves.filter (·.Accepted) = accepted from rfl, split]
      exact Save.foldl_apply_of_truncate replaced appended ps
    · intro q rest all
      simp [loadEncoded, loaded, all]
    · intro none
      exact ⟨noProgram path, _, by simp [loadEncoded, loaded, none], rfl, rfl, rfl⟩
  · rintro before s after rfl refused content
    rw [saveAll_concat]
    exact read_save_of_refused (wf.saveAll (undisturbed_append.1 calm).1) refused

/-- Five requests for a file in a directory that has to be made first. The second is refused for its
program and the fourth for its mode. -/
theorem load_after_mixed_saves :
    let t : FileTree := {}
    let saves : List Save := [⟨[.push 1], .append⟩, ⟨[⟨200, 0⟩], .truncate⟩,
      ⟨[.halt], .truncate⟩, ⟨[.push 2], .other 7⟩, ⟨[.push 3], .append⟩]
    t.WellFormed ∧ t.Holds "d/p" [] ∧ (∀ s ∈ saves, s.program.length < 2 ^ 32) ∧
      t.Undisturbed "d/p" saves ∧
      (t.saveAll "d/p" saves).loadPrograms "d/p" = .ok [[.halt], [.push 3]] := by
  intro t saves
  have wf : t.WellFormed := ⟨fun p part n h => by simp [t, node?] at h, rfl⟩
  have initial : t.Holds "d/p" [] := .inr ⟨rfl, nofun⟩
  have short : ∀ s ∈ saves, s.program.length < 2 ^ 32 := by decide
  have calm : t.Undisturbed "d/p" saves :=
    ⟨by decide, by decide, by decide, by decide, by decide, trivial⟩
  obtain ⟨loads, there, -⟩ := load_after_saves t wf "d/p" [] initial saves short calm
  obtain ⟨content, found⟩ := there.2 (.inr (by decide))
  obtain ⟨qs, loaded, -, replaced, -⟩ := loads content found
  rw [replaced [⟨[.push 1], .append⟩] ⟨[.halt], .truncate⟩ [⟨[.push 3], .append⟩] (by decide) rfl
    (by decide)] at loaded
  exact ⟨wf, initial, short, calm, loaded⟩

end FileTree

end StackMachine
