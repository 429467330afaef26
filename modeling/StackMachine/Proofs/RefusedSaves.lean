import StackMachine.Proofs.TreeChanges

/-!
# Refused saves

A program that cannot be encoded is refused before anything is done, so the tree stays as it is. An
unknown mode is refused after the directory has been made, so the tree stays as it is only if that
directory was there. In neither case is a file written.
-/

namespace StackMachine.FileTree

open StackMachine.Path (IsOnWay)

variable {t u : FileTree} {path : String} {p : Program} {mode : SaveMode} {f : Failure}

/-! ### Directories that are there -/

/-- A directory that is there is made by doing nothing, and no other is. -/
theorem stat_of_makeDirectory_self (named : Named path) (h : t.makeDirectory path = .ok t) :
    t.stat path = .ok .directory := by
  rw [makeDirectory] at h
  split at h
  next there => exact there
  next => cases h
  next missing =>
    split at h
    next q room =>
      have found : t.node? q = some .directory := by
        by_cases root : q = []
        · rw [root]
          rfl
        · rw [← Except.ok.inj h, node?_put root, if_pos rfl]
      rw [stat_of_newPlace (named.getLast?_ne_empty room) room, found]
    next => cases h

/-- If making directories changes nothing, all of them are there: a directory that is made stays
while the others are. -/
theorem stat_of_makeAll_self {paths : List String} (wf : t.WellFormed)
    (named : ∀ path ∈ paths, Named path) (h : t.makeAll paths = (t, none)) :
    ∀ path ∈ paths, t.stat path = .ok .directory := by
  induction paths with
  | nil => simp
  | cons path paths ih =>
    obtain ⟨named_first, named⟩ := List.forall_mem_cons.1 named
    rw [makeAll] at h
    cases made : t.makeDirectory path with
    | error f => simp [made] at h
    | ok u =>
      rw [made] at h
      dsimp only at h
      have same : u = t := by
        refine (makeDirectory_cases wf named_first made).resolve_right ?_
        rintro ⟨dir, last, -, nothing, directory, rfl⟩
        have kept := (wf.makeDirectory named_first made).1.makeAll named |>.2.node (dir ++ [last])
        rw [h, node?_put (by simp), if_pos rfl, nothing] at kept
        simp at kept
      subst same
      exact List.forall_mem_cons.2 ⟨stat_of_makeDirectory_self named_first made, ih named h⟩

theorem WellFormed.stat_here (wf : t.WellFormed) : t.stat "." = .ok .directory := by
  have unobjected : objection? "." = none := by decide
  have begins : t.start "." = t.here := rfl
  have only : Path.parts "." = ["."] := by decide
  simp [stat, resolve, unobjected, begins, only, walk, target, wf.here]

/-- Making the directory of a path changes nothing exactly if the directory is there. -/
theorem WellFormed.makeParent_self_iff (wf : t.WellFormed)
    (made : t.makeParent path = (u, none)) :
    u = t ↔ t.stat (Path.directory path) = .ok .directory := by
  constructor
  · rintro rfl
    unfold FileTree.makeParent at made
    dsimp only at made
    split at made
    next current =>
      rw [current]
      exact wf.stat_here
    next =>
      split at made
      next => simp at made
      next v all =>
        obtain rfl : v = u := congrArg Prod.fst made
        rw [makeDirectories] at all
        have last := Path.mem_stages_self (Path.directory_ne_empty path)
        exact stat_of_makeAll_self wf (fun stage mem => named_of_mem_stages mem) all _ last
  · intro there
    have directory := (stat_eq_ok_iff_place.1 there).2.2
    rw [Path.place_directory] at directory
    rw [← makeParent_of_directory wf directory, made]

/-! ### Refusals -/

/-- What is wrong with a request to save a program, whatever the tree holds. -/
inductive Objection (p : Program) (mode : SaveMode) : Failure → Prop where
  /-- A tag is outside the set. -/
  | program {e : Program.EncodeError} : p.encode = .error e → Objection p mode e.failure
  | mode {code : Int} : mode = .other code → Objection p mode (SaveMode.unknownCode code)

/-- The program is refused at once, the mode after the directory has been made. -/
theorem saveProgram_of_objection (refused : Objection p mode f)
    (saved : t.saveProgram path p mode = (u, some f)) :
    ¬ p.InSet ∧ u = t ∨ p.InSet ∧ t.makeParent path = (u, none) := by
  rw [saveProgram] at saved
  split at saved
  next e unencodable =>
    refine .inl ⟨fun inSet => ?_, (congrArg Prod.fst saved).symm⟩
    rw [Program.encode_eq_ok_iff.2 ⟨inSet, rfl⟩] at unencodable
    cases unencodable
  next d encoded =>
    refine .inr ⟨(Program.encode_eq_ok_iff.1 encoded).1, ?_⟩
    cases refused with
    | program unencodable =>
      rw [encoded] at unencodable
      cases unencodable
    | mode other =>
      subst other
      split at saved
      next v g parent =>
        -- a directory that cannot be made is another failure
        have kind := kind_of_makeParent (congrArg Prod.snd parent)
        obtain ⟨-, rfl⟩ : v = u ∧ g = SaveMode.unknownCode _ := by simpa using saved
        cases kind
      next v parent =>
        obtain rfl : v = u := congrArg Prod.fst saved
        exact parent

/-- A save that is refused for its program or its mode writes no file. It leaves the tree exactly as
it was if it was refused for its program, or if the directory of the path was there already; else
it leaves new directories on the way to the file. -/
theorem refused_save_keeps_tree_iff (t u : FileTree) (wf : t.WellFormed) (path : String)
    (p : Program) (mode : SaveMode) (f : Failure) (refused : Objection p mode f)
    (saved : t.saveProgram path p mode = (u, some f)) :
    Changes (IsOnWay t.here path) (fun _ => False) t u ∧
      (u = t ↔ ¬ p.InSet ∨ t.stat (Path.directory path) = .ok .directory) := by
  refine ⟨wf.changes_saveProgram_failed saved, ?_⟩
  obtain ⟨outside, same⟩ | ⟨inSet, made⟩ := saveProgram_of_objection refused saved
  · exact iff_of_true same (.inl outside)
  · rw [wf.makeParent_self_iff made]
    exact (or_iff_right (not_not_intro inSet)).symm

/-- In a directory that is there, an unknown mode changes nothing. -/
theorem unknown_mode_keeps_directory :
    let t : FileTree := { nodes := [(["d"], .directory), (["d", "p"], .file [1, 2])] }
    let u := (t.saveProgram "d/p" [.halt] (.other 7)).1
    t.WellFormed ∧ Objection [.halt] (.other 7) (SaveMode.unknownCode 7) ∧
      t.saveProgram "d/p" [.halt] (.other 7) = (u, some (SaveMode.unknownCode 7)) ∧ u = t := by
  intro t u
  have empty : ({} : FileTree).WellFormed := ⟨fun p part n h => by simp [node?] at h, rfl⟩
  have inner : (({} : FileTree).put ([] ++ ["d"]) .directory).WellFormed :=
    empty.put rfl (by decide)
  have outer : ((({} : FileTree).put ([] ++ ["d"]) .directory).put (["d"] ++ ["p"])
      (.file [1, 2])).WellFormed := inner.put rfl (by decide)
  have wf : t.WellFormed := outer
  have refused : Objection [.halt] (.other 7) (SaveMode.unknownCode 7) := .mode rfl
  have saved : t.saveProgram "d/p" [.halt] (.other 7) = (u, some (SaveMode.unknownCode 7)) := by
    decide
  have there : t.stat (Path.directory "d/p") = .ok .directory := by decide
  obtain ⟨-, keeps⟩ := refused_save_keeps_tree_iff t u wf "d/p" _ _ _ refused saved
  exact ⟨wf, refused, saved, keeps.2 (.inr there)⟩

/-- Where the directory is missing, an unknown mode leaves it behind. -/
theorem unknown_mode_leaves_directory :
    saveProgram {} "x/p.bin" [.halt] (.other 7) =
      ({ nodes := [(["x"], .directory)] }, some (SaveMode.unknownCode 7)) := by
  decide

end StackMachine.FileTree
