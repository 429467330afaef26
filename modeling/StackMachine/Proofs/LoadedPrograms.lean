import StackMachine.Proofs.AssemblyRoundTrip
import StackMachine.Proofs.RunLoop
import StackMachine.Proofs.SavedPrograms
import StackMachine.Proofs.StrictAssembly

/-!
# Programs that can be loaded

Whatever is decoded or assembled has all its tags in the instruction set. Such a program can be
saved, written as assembly and read back without change, and no step of any run of it comes upon an
unknown opcode.
-/

namespace StackMachine

/-! ### Assembled programs -/

namespace Assembly

variable {isStrict : Bool} {line token : Text} {tokens ls : List Text} {op : Opcode}
  {i : Instruction} {p : Program} {d d' : Draft} {n : Nat} {o : Options} {source : Text}

theorem tag_lt_of_withOperand (h : withOperand op token = .ok i) : i.tag < 10 := by
  unfold withOperand at h
  split at h
  · obtain rfl := Except.ok.inj h
    exact op.tag_lt
  · simp at h

theorem tag_lt_of_lenient (h : lenient tokens = .ok i) : i.tag < 10 := by
  unfold lenient at h
  split at h
  · obtain rfl := Except.ok.inj h
    exact Opcode.halt.tag_lt
  · exact tag_lt_of_withOperand h
  · obtain rfl := Except.ok.inj h
    exact Opcode.tag_lt _

theorem tag_lt_of_instructionOfTokens (h : instructionOfTokens isStrict tokens = .ok i) :
    i.tag < 10 := by
  cases isStrict with
  | false => exact tag_lt_of_lenient h
  | true => exact tag_lt_of_lenient (strict_eq_ok_iff.1 h).1

theorem tag_lt_of_instructionOfLine (h : instructionOfLine isStrict line = .ok i) :
    i.tag < 10 := by
  unfold instructionOfLine at h
  split at h
  · obtain rfl := Except.ok.inj h
    exact Opcode.halt.tag_lt
  · exact tag_lt_of_instructionOfTokens h

theorem inSet_of_programOfLines (h : programOfLines isStrict n ls = .ok p) : p.InSet := by
  induction ls generalizing n p with
  | nil =>
    obtain rfl := Except.ok.inj h
    exact nofun
  | cons line ls ih =>
    obtain ⟨i, q, first, rest, rfl⟩ := programOfLines_cons_eq_ok_iff.1 h
    exact Program.inSet_cons.2 ⟨tag_lt_of_instructionOfLine first, ih rest⟩

/-- The slots that are filled have their tags in the set. -/
def Draft.InSet (d : Draft) : Prop := ∀ i, .filled i ∈ d.slots → i.tag < 10

theorem Draft.InSet.add (h : d.InSet) (added : d.add isStrict n line = .ok d') : d'.InSet := by
  cases read : Statement.ofLine line with
  | nothing =>
    obtain rfl : d = d' := by simpa [Draft.add, read] using added
    exact h
  | declaration name =>
    have slots : d'.slots = d.slots := by
      simp only [Draft.add, read, Draft.declare] at added
      grind
    simpa [Draft.InSet, slots] using h
  | jump op label =>
    obtain rfl : d.push (.waiting op label n) = d' := by simpa [Draft.add, read] using added
    simpa [Draft.InSet, Draft.push] using h
  | instruction tokens =>
    obtain ⟨i, translated, rfl⟩ := (add_instruction_eq_ok_iff read).1 added
    have first := tag_lt_of_instructionOfTokens translated
    simpa [Draft.InSet, Draft.push] using ⟨first, h⟩

theorem Draft.InSet.addAll (h : d.InSet) (added : d.addAll isStrict n ls = .ok d') : d'.InSet := by
  induction ls generalizing n d with
  | nil =>
    obtain rfl := Except.ok.inj added
    exact h
  | cons line ls ih =>
    obtain ⟨e, first, rest⟩ := addAll_cons_eq_ok_iff.1 added
    exact ih (h.add first) rest

theorem tag_lt_of_instruction {labels : List (Text × Nat)} {s : Slot}
    (filled : ∀ i, s = .filled i → i.tag < 10) (h : s.instruction labels = .ok i) :
    i.tag < 10 := by
  cases s with
  | filled j =>
    obtain rfl := Except.ok.inj h
    exact filled j rfl
  | waiting op label line =>
    obtain ⟨t, -, rfl⟩ := instruction_waiting_eq_ok_iff.1 h
    exact op.tag_lt

theorem Draft.InSet.program (h : d.InSet) (completed : d.program = .ok p) : p.InSet := by
  obtain ⟨q, filled, length, all⟩ | ⟨_, _, _, unfilled, -⟩ :=
    fillSlots_cases d.labels d.slots.reverse
  · obtain rfl : p = q := Except.ok.inj (completed.symm.trans filled)
    intro i mem
    obtain ⟨k, lt, rfl⟩ := List.getElem_of_mem mem
    obtain ⟨i, at_k, instruction⟩ := all k _ (List.getElem?_eq_getElem (length ▸ lt))
    obtain rfl : p[k] = i := by simpa [lt] using at_k
    refine tag_lt_of_instruction (fun i slot => h i ?_) instruction
    exact List.mem_reverse.1 (slot ▸ List.getElem_mem _)
  · simp [Draft.program, unfilled] at completed

theorem inSet_of_assemble (h : assemble o source = .ok p) : p.InSet := by
  obtain ⟨isStrict, _ | _⟩ := o
  · exact inSet_of_programOfLines h
  · obtain ⟨d, added, completed⟩ := assemble_labels_eq_ok_iff.1 h
    have empty : Draft.InSet {} := by simp [Draft.InSet]
    exact (empty.addAll added).program completed

theorem assemble_of_inSet (h : p.InSet) (o : Options) :
    assemble o (Text.ofChars p.assembly) = .ok p := by
  have same : ∀ i ∈ p, shown i = i := fun i mem => by rw [shown_eq, if_pos (h i mem)]
  rw [assemble_eq_shown, List.map_congr_left same, List.map_id']

end Assembly

/-! ### Programs of any origin -/

namespace Program

variable {p : Program}

/-- A program that can be come by: decoded alone or in a row with others, assembled, or loaded from
a file. -/
inductive Loadable : Program → Prop where
  | decoded {d : List UInt8} {p : Program} : decode d = .ok p → Loadable p
  | listed {d : List UInt8} {ps : List Program} {p : Program} : decodeAll d = .ok ps → p ∈ ps →
      Loadable p
  | assembled {o : Assembly.Options} {source : Text} {p : Program} :
      Assembly.assemble o source = .ok p → Loadable p
  | loaded {t : FileTree} {path : String} {c : Config} {p : Program} :
      t.loadProgram path c = .ok p → Loadable p
  | loadedAll {t : FileTree} {path : String} {ps : List Program} {p : Program} :
      t.loadPrograms path = .ok ps → p ∈ ps → Loadable p

theorem inSet_of_mem_decodeAll {d : List UInt8} {ps : List Program} (h : decodeAll d = .ok ps)
    (mem : p ∈ ps) : p.InSet := by
  obtain ⟨ds, encodings, -⟩ := decodeAll_eq_ok_iff.1 h
  clear h
  induction encodings with
  | nil => exact absurd mem List.not_mem_nil
  | cons encoded _ ih =>
    obtain rfl | later := List.mem_cons.1 mem
    · exact encoded.1
    · exact ih later

theorem inSet_of_mem_loadPrograms {t : FileTree} {path : String} {ps : List Program}
    (h : t.loadPrograms path = .ok ps) (mem : p ∈ ps) : p.InSet := by
  unfold FileTree.loadPrograms at h
  split at h
  · simp at h
  · split at h
    · simp at h
    next decoded =>
      obtain rfl := Except.ok.inj h
      exact inSet_of_mem_decodeAll decoded mem

theorem inSet_of_loadProgram {t : FileTree} {path : String} {c : Config}
    (h : t.loadProgram path c = .ok p) : p.InSet := by
  unfold FileTree.loadProgram at h
  split at h
  · unfold FileTree.loadAssembly at h
    split at h
    · simp at h
    · split at h
      · simp at h
      next assembled =>
        obtain rfl := Except.ok.inj h
        exact Assembly.inSet_of_assemble assembled
  · unfold FileTree.loadEncoded at h
    split at h
    · simp at h
    · simp at h
    next loaded =>
      obtain rfl := Except.ok.inj h
      exact inSet_of_mem_loadPrograms loaded (List.mem_cons_self ..)

theorem Loadable.inSet (h : p.Loadable) : p.InSet := by
  cases h with
  | decoded decoded => exact (exists_layout_of_decode decoded).1
  | listed decoded mem => exact inSet_of_mem_decodeAll decoded mem
  | assembled assembled => exact Assembly.inSet_of_assemble assembled
  | loaded loaded => exact inSet_of_loadProgram loaded
  | loadedAll loaded mem => exact inSet_of_mem_loadPrograms loaded mem

end Program

/-! ### Saving -/

namespace FileTree

variable {t : FileTree} {path : String} {p : Program} {f : Failure}

theorem kind_of_writeProgram {append : Bool} {bytes : List UInt8}
    (h : (t.writeProgram path append bytes).2 = some f) : f.kind = .fileSystem := by
  unfold writeProgram at h
  split at h
  · simp at h
  · obtain rfl := Option.some.inj h
    exact kind_fileSystem ..

/-- Nothing but the file system can keep a program from being saved. -/
theorem kind_of_saveProgram {mode : SaveMode} (hset : p.InSet)
    (known : mode = .append ∨ mode = .truncate) (h : (t.saveProgram path p mode).2 = some f) :
    f.kind = .fileSystem := by
  have encoded := Program.encode_eq_ok_iff.2 ⟨hset, rfl⟩
  unfold saveProgram at h
  rcases parent : t.makeParent path with ⟨u, _ | g⟩
  · obtain rfl | rfl := known
    · exact kind_of_writeProgram (by simpa [encoded, parent] using h)
    · exact kind_of_writeProgram (by simpa [encoded, parent] using h)
  · obtain rfl : g = f := by simpa [encoded, parent] using h
    exact kind_of_makeParent (congrArg Prod.snd parent)

theorem loadPrograms_of_saveProgram (hset : p.InSet) (short : p.length < 2 ^ 32)
    (saved : (t.saveProgram path p .truncate).2 = none) :
    (t.saveProgram path p .truncate).1.loadPrograms path = .ok [p] := by
  have accepted : Save.Accepted ⟨p, .truncate⟩ := ⟨hset, .inr rfl⟩
  have calm : (t.save path ⟨p, .truncate⟩).2.map Failure.kind ≠ some .fileSystem := by
    simp [save, saved]
  obtain ⟨d, encoded, written⟩ := save_of_accepted accepted calm
  have content := read_write_replace written
  have encodes : Program.Encodes d p := Program.encodes_of_encode encoded short
  have decoded : Program.decodeAll d = .ok [p] :=
    Program.decodeAll_eq_ok_iff.2 ⟨[d], .cons encodes .nil, by simp⟩
  rw [save] at content
  simp [loadPrograms, contentFor, content, decoded]

end FileTree

/-! ### Unknown opcodes -/

theorem head?_toList_append {c : Char} {s : String} (first : s.toList.head? = some c)
    (t : String) : (s ++ t).toList.head? = some c := by
  rw [String.toList_append, List.head?_append, first, Option.some_or]

/-- The details of all other causes begin with another letter. -/
theorem Fault.Cause.detail_ne {cause : Cause} (known : cause ≠ .unknownOpcode) :
    cause.detail ≠ "opcode outside the instruction set" := by
  have first : ∃ c, cause.detail.toList.head? = some c ∧ c ≠ 'o' := by
    cases cause with
    | unknownOpcode => exact absurd rfl known
    | pcOutside | negativeDepth => exact ⟨_, head?_toList_append (by rfl) _, by decide⟩
    | stackFull | divisionByZero =>
      exact ⟨_, head?_toList_append (head?_toList_append (by rfl) _) _, by decide⟩
    | missingValues | tooDeep | targetOutside =>
      exact ⟨_, head?_toList_append
        (head?_toList_append (head?_toList_append (by rfl) _) _) _, by decide⟩
  obtain ⟨c, first, ne⟩ := first
  intro same
  have opcode : "opcode outside the instruction set".toList.head? = some 'o' := by rfl
  exact ne (Option.some.inj (first.symm.trans (same ▸ opcode)))

namespace Machine

open Fault (Cause)

variable {m : Machine} {i : Instruction} {f : Fault}

theorem grow_ne_unknownOpcode (m : Machine) (v : Int32) : m.grow v ≠ .error .unknownOpcode := by
  unfold grow
  split <;> simp

theorem copy_ne_unknownOpcode (m : Machine) (k : Int32) : m.copy k ≠ .error .unknownOpcode := by
  unfold copy
  split
  · simp
  · split
    · exact m.grow_ne_unknownOpcode _
    · simp

theorem combine_ne_unknownOpcode {g : Int32 → Int32 → Except Cause Int32}
    (h : ∀ a b, g a b ≠ .error .unknownOpcode) : m.combine g ≠ .error .unknownOpcode := by
  unfold combine
  split
  next b a _ _ =>
    have := h a b
    cases result : g a b <;> simp_all
  · simp

/-- Tags outside the set, and no others, make an opcode unknown. -/
theorem execute_eq_unknownOpcode_iff :
    m.execute i = .error .unknownOpcode ↔ 10 ≤ i.tag := by
  rw [← Opcode.ofTag?_eq_none_iff]
  unfold execute Instruction.opcode?
  cases known : Opcode.ofTag? i.tag with
  | none => simp
  | some op =>
    cases op with
    | push => simpa using m.grow_ne_unknownOpcode _
    | duplicate => simpa using m.copy_ne_unknownOpcode _
    | add | subtract | multiply | equal => simpa using combine_ne_unknownOpcode (by simp)
    | divide =>
      simp only [reduceCtorEq, iff_false]
      refine combine_ne_unknownOpcode fun a b => ?_
      unfold quotient
      split <;> simp
    | jump =>
      simp only [reduceCtorEq, iff_false]
      unfold jumpTo
      dsimp only
      split <;> simp
    | jumpIfTrue =>
      simp only [reduceCtorEq, iff_false]
      unfold branchTo
      split
      · simp
      · split <;> simp
    | halt => simp

theorem cause_of_step (inSet : m.instructions.InSet) (h : m.step = .error f) :
    f.cause ≠ .unknownOpcode := by
  unfold step at h
  split at h
  · simp at h
  split at h
  · obtain rfl := Except.error.inj h
    simp
  next i current =>
    split at h
    · simp at h
    next refused =>
      obtain rfl := Except.error.inj h
      rintro rfl
      obtain ⟨n, -, at_n⟩ := fetches_iff.2 current
      have inside : i.tag < 10 := inSet i (List.mem_of_getElem? at_n)
      exact absurd inside (UInt8.not_lt.2 (execute_eq_unknownOpcode_iff.1 refused))

theorem cause_of_attempt {n : Nat} (inSet : m.instructions.InSet)
    (h : (m.after n).attempt.2 = some f) : f.cause ≠ .unknownOpcode := by
  rw [attempt_eq] at h
  cases step : (m.after n).step with
  | ok t => simp [step] at h
  | error g =>
    obtain rfl : g = f := by simpa [step] using h
    exact cause_of_step (m.instructions_after n ▸ inSet) step

end Machine

theorem Runner.cause_of_run {σ : Type} {r : Runner σ} {fuel : Nat} {m : Machine} {watch : σ}
    {log : Log} {o : Outcome σ} {f : Fault} (inSet : m.instructions.InSet)
    (h : r.run fuel m watch log = some o) (faulted : o.stop = .faulted f) :
    f.cause ≠ .unknownOpcode := by
  obtain ⟨e, q, rfl, leads, last⟩ := exists_of_run h
  have stop : e.stop = .faulted f := faulted
  have machine : q.machine = m.after e.steps := leads.machine
  rw [stop] at last
  generalize e.toProgress = p at last
  cases last with
  | fault _ _ _ refused =>
    rw [machine] at refused
    exact Machine.cause_of_step (m.instructions_after e.steps ▸ inSet) refused

/-! ### What can be loaded can be kept -/

namespace Program

/-- A program that can be loaded has all its tags in the set. So it can be encoded and decoded,
written as assembly and assembled in every mode, and saved and loaded; and however a machine stands
in it, no step and no run reports an unknown opcode. -/
theorem loadable_stays_in_set (p : Program) (h : p.Loadable) :
    (∀ i ∈ p, i.tag < 10) ∧
    (∃ d, p.encode = .ok d ∧ (p.length < 2 ^ 32 → decode d = .ok p)) ∧
    (∀ o : Assembly.Options, Assembly.assemble o (Text.ofChars p.assembly) = .ok p) ∧
    (∀ m : Machine, m.program = some p →
      (∀ n f, (m.after n).attempt.2 = some f →
        f.report.detail ≠ "opcode outside the instruction set") ∧
      ∀ (σ : Type) (r : Runner σ) (fuel : Nat) (watch : σ) (log : Log) (o : Outcome σ)
        (report : Report), r.run fuel m watch log = some o →
        o.result.failure = some (.report report) →
        report.detail ≠ "opcode outside the instruction set") ∧
    ∀ (t : FileTree) (path : String),
      (∀ mode f, mode = .append ∨ mode = .truncate → (t.saveProgram path p mode).2 = some f →
        f.kind = .fileSystem) ∧
      (p.length < 2 ^ 32 → (t.saveProgram path p .truncate).2 = none →
        (t.saveProgram path p .truncate).1.loadPrograms path = .ok [p]) := by
  have inSet := h.inSet
  have encoded := encode_eq_ok_iff.2 ⟨inSet, rfl⟩
  refine ⟨inSet, ⟨_, encoded, decode_encode_of_lt encoded⟩, ?_, ?_, ?_⟩
  · exact Assembly.assemble_of_inSet inSet
  · intro m loaded
    have inside : m.instructions.InSet := by simpa [Machine.instructions, loaded] using inSet
    refine ⟨fun n f fault => Fault.Cause.detail_ne (Machine.cause_of_attempt inside fault), ?_⟩
    intro σ r fuel watch log o report ended failed
    have stop : o.stop.failure? = some (.report report) := failed
    cases hs : o.stop with
    | faulted f =>
      obtain rfl : f.report = report := by simpa [hs, Stop.failure?, Fault.failure] using stop
      exact Fault.Cause.detail_ne (Runner.cause_of_run inside ended hs)
    | halted | limitReached | cancelled => simp [hs, Stop.failure?] at stop
  · intro t path
    exact ⟨fun mode f known => FileTree.kind_of_saveProgram inSet known,
      FileTree.loadPrograms_of_saveProgram inSet⟩

/-- The number of instructions is spelled with one byte more than it needs, and the operand means
nothing. The machine stands behind the program, which is another fault. -/
theorem loadable_padded_halt :
    let d : List UInt8 := [0x53, 0x56, 0x4D, 0x42, 0x01, 0x00, 0x81, 0x00, 9, 5, 0, 0, 0]
    let p : Program := [⟨9, 5⟩]
    let m : Machine := { program := some p, pc := 1 }
    let f : Fault := ⟨1, none, .pcOutside 1⟩
    decode d = .ok p ∧ p.Loadable ∧
      (∃ e, p.encode = .ok e ∧ (p.length < 2 ^ 32 → decode e = .ok p)) ∧
      (∀ o : Assembly.Options, Assembly.assemble o (Text.ofChars p.assembly) = .ok p) ∧
      (m.after 0).attempt.2 = some f ∧
      f.report.detail ≠ "opcode outside the instruction set" := by
  intro d p m f
  have decoded : decode d = .ok p := by decide
  have fault : (m.after 0).attempt.2 = some f := rfl
  obtain ⟨-, encoded, assembled, runs, -⟩ := loadable_stays_in_set p (.decoded decoded)
  exact ⟨decoded, .decoded decoded, encoded, assembled, fault, (runs m rfl).1 0 f fault⟩

end Program

end StackMachine
