import StackMachine.Proofs.Faults

/-!
# Where a run can stand

Only a branch that is taken leads out of the program, since its target is not checked. Such a machine
faults at every further step, so the instruction that led out can still be named. A machine that has
halted stands just behind the instruction that ended the program, and stays there.
-/

namespace StackMachine.Machine

/-- Where a step leads from the instruction `i`. -/
inductive Moves (m : Machine) (i : Instruction) (t : Machine) : Prop where
  | next : t.pc = m.pc + 1 → t.halted = m.halted → Moves m i t
  | jump : i.opcode? = some .jump → t.pc = i.operand.toInt → 0 ≤ t.pc →
      t.pc < m.instructions.length → t.halted = m.halted → Moves m i t
  | branch : i.opcode? = some .jumpIfTrue → t.pc = i.operand.toInt → t.halted = m.halted →
      Moves m i t
  | halt : i.opcode? = some .halt → t.pc = m.pc + 1 → t.halted = true → Moves m i t

/-- What holds of a machine whenever it runs the program `p` from its start. -/
structure OnCourse (p : Option Program) (m : Machine) : Prop where
  program : m.program = p
  /-- The machine stands in the program or just behind it, or where a branch led. -/
  place : 0 ≤ m.pc ∧ m.pc ≤ (p.getD []).length ∨
    ∃ i ∈ p.getD [], i.opcode? = some .jumpIfTrue ∧ m.pc = i.operand.toInt
  ended : m.halted = true →
    ∃ n : Nat, m.pc = n + 1 ∧ ∃ i, (p.getD [])[n]? = some i ∧ i.opcode? = some .halt

variable {m t : Machine} {i : Instruction} {p : Option Program}

theorem Rule.moves (h : Rule m (.ok t)) : ∃ i, m.Fetches i ∧ m.Moves i t := by
  cases h with
  | push hi _ ht | duplicate hi _ _ _ _ ht | combine hi _ _ _ _ ht | branchPassed hi _ _ ht =>
    exact ⟨_, hi, .next ht.pc ht.halted⟩
  | jump hi nonneg lt ht =>
    exact ⟨_, hi, .jump (by simp) ht.pc (ht.pc ▸ nonneg) (ht.pc ▸ lt) ht.halted⟩
  | branchTaken hi _ ht => exact ⟨_, hi, .branch (by simp) ht.pc ht.halted⟩
  | halt hi ht => exact ⟨_, hi, .halt (by simp) ht.pc ht.halted⟩

/-! ### One step -/

theorem OnCourse.moves (h : OnCourse p m) (running : m.halted = false) (hi : m.Fetches i)
    (moves : m.Moves i t) (program : t.program = m.program) : OnCourse p t := by
  have held : m.instructions = p.getD [] := by rw [instructions, h.program]
  obtain ⟨n, pc, at_n⟩ := hi
  rw [held] at at_n
  have lt : n < (p.getD []).length := (List.getElem?_eq_some_iff.1 at_n).1
  have still (same : t.halted = m.halted) : t.halted ≠ true := by simp [same, running]
  cases moves with
  | next hpc halted =>
    exact ⟨program.trans h.program, .inl (by omega), fun ended => absurd ended (still halted)⟩
  | jump _ _ nonneg below halted =>
    rw [held] at below
    exact ⟨program.trans h.program, .inl (by omega), fun ended => absurd ended (still halted)⟩
  | branch op hpc halted =>
    have led : ∃ i ∈ p.getD [], i.opcode? = some .jumpIfTrue ∧ t.pc = i.operand.toInt :=
      ⟨i, List.mem_of_getElem? at_n, op, hpc⟩
    exact ⟨program.trans h.program, .inr led, fun ended => absurd ended (still halted)⟩
  | halt op hpc _ =>
    exact ⟨program.trans h.program, .inl (by omega), fun _ => ⟨n, by omega, i, at_n, op⟩⟩

theorem OnCourse.attempt (h : OnCourse p m) : OnCourse p m.attempt.1 := by
  generalize ha : m.attempt = a
  cases ha ▸ m.attempted with
  | halted | fault => exact h
  | done running rule =>
    obtain ⟨i, hi, moves⟩ := rule.moves
    exact h.moves running hi moves rule.keeps.1

/-! ### Whole runs -/

theorem OnCourse.after (h : OnCourse p m) (n : Nat) : OnCourse p (m.after n) := by
  induction n with
  | zero => exact h
  | succ n ih => exact ih.attempt

/-- A machine without a program stays as it is. -/
theorem after_empty (maxStack : Int) (n : Nat) : (empty maxStack).after n = empty maxStack :=
  after_of_fault rfl n

theorem onCourse_load (p : Option Program) (maxStack : Int) :
    OnCourse p ((empty maxStack).load p) :=
  ⟨rfl, .inl ⟨Int.le_refl 0, Int.natCast_nonneg _⟩, nofun⟩

theorem OnCourse.behind_end (h : OnCourse p m) (halted : m.halted = true) :
    1 ≤ m.pc ∧ m.pc ≤ (p.getD []).length ∧
      ∃ i, (p.getD [])[(m.pc - 1).toNat]? = some i ∧ i.opcode? = some .halt := by
  obtain ⟨n, pc, i, at_n, op⟩ := h.ended halted
  have lt : n < (p.getD []).length := (List.getElem?_eq_some_iff.1 at_n).1
  have back : (m.pc - 1).toNat = n := by omega
  exact ⟨by omega, by omega, i, back ▸ at_n, op⟩

/-- A machine that stands outside its program faults at every step. -/
theorem fault_of_outside (running : m.halted = false)
    (outside : m.pc < 0 ∨ m.instructions.length ≤ m.pc) (n : Nat) :
    ∃ f, (m.after n).attempt = (m, some f) ∧ f.kind = .illegalInstruction := by
  have fault : m.step = .error ⟨m.pc, none, .pcOutside m.instructions.length⟩ := by
    simp [step, running, current?_eq_none_iff.2 outside]
  exact ⟨_, by rw [after_of_fault fault, attempt_of_fault fault], rfl⟩

theorem OnCourse.fault_of_left (h : OnCourse p m)
    (left : ¬ (0 ≤ m.pc ∧ m.pc ≤ (p.getD []).length)) (n : Nat) :
    ∃ f, (m.after n).attempt = (m, some f) ∧ f.kind = .illegalInstruction := by
  refine fault_of_outside ?_ ?_ n
  · refine Bool.eq_false_iff.2 fun halted => left ?_
    obtain ⟨low, high, -⟩ := h.behind_end halted
    omega
  · rw [instructions, h.program]
    omega

/-- However long a program runs, it stays as it was loaded. The machine stands in it or just behind
it, unless a branch led out of it, and then all further steps are illegal. A machine that has halted
stands just behind the instruction that ended the program, and further steps change nothing. -/
theorem run_stays_on_course (p : Option Program) (maxStack : Int) (before n : Nat) :
    let m := (((empty maxStack).after before).load p).after n
    m.program = p ∧
    (0 ≤ m.pc ∧ m.pc ≤ (p.getD []).length ∨
      (∃ i ∈ p.getD [], i.opcode? = some .jumpIfTrue ∧ m.pc = i.operand.toInt) ∧
      ∀ k, ∃ f, (m.after k).attempt = (m, some f) ∧ f.kind = .illegalInstruction) ∧
    (m.halted = true → 1 ≤ m.pc ∧ m.pc ≤ (p.getD []).length ∧
      (∃ i, (p.getD [])[(m.pc - 1).toNat]? = some i ∧ i.opcode? = some .halt) ∧
      ∀ k, (m.after k).attempt = (m, none)) := by
  intro m
  have course : OnCourse p m := by
    have start := onCourse_load p maxStack
    rw [← after_empty maxStack before] at start
    exact start.after n
  refine ⟨course.program, ?_, ?_⟩
  · by_cases inside : 0 ≤ m.pc ∧ m.pc ≤ (p.getD []).length
    · exact .inl inside
    · exact .inr ⟨course.place.resolve_left inside, course.fault_of_left inside⟩
  · intro halted
    obtain ⟨low, high, last⟩ := course.behind_end halted
    refine ⟨low, high, last, fun k => ?_⟩
    rw [after_of_halted halted, attempt_eq, step, if_pos halted]

end StackMachine.Machine
