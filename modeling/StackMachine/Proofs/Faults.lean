import StackMachine.Machine.InPlace
import StackMachine.Proofs.StepRules

/-!
# Faults change nothing

Every check of a step in place comes before its first change. So an attempt has the effect of
`Machine.step`, and a fault leaves the machine as it was: every further attempt gives the same fault
again.
-/

namespace StackMachine

theorem tagName_ne_empty (tag : UInt8) : tagName tag ≠ "" := by
  unfold tagName
  split
  · rename_i op _
    cases op <;> decide
  · intro empty
    simpa using congrArg String.toList empty

/-- Of the kinds of faults, steps give only these. -/
theorem Fault.Cause.kind_mem (cause : Cause) :
    cause.kind ∈ [.stackOverflow, .stackUnderflow, .illegalInstruction, .divisionByZero] := by
  cases cause <;> simp [kind]

theorem Fault.Cause.kind_isFault (cause : Cause) : cause.kind.isFault = true := by
  cases cause <;> rfl

namespace Machine

open Fault (Cause)

variable {m t : Machine} {f : Fault}

/-! ### Work is done as a whole or not at all -/

/-- How work ends that makes no change unless it is completed. -/
def settled (m : Machine) : Except Cause Machine → EStateM.Result Cause Machine Unit
  | .ok t => .ok () t
  | .error cause => .error cause m

namespace Work

@[simp] theorem run_refuse {α : Type} (cause : Cause) :
    EStateM.run (throw cause : Work α) m = .error cause m := rfl

theorem run_grow (v : Int32) : (grow v).run m = m.settled (m.grow v) := by
  unfold grow needRoom Machine.grow
  by_cases full : 0 < m.limit ∧ m.limit ≤ m.depth
  · simp [full, settled]
  · simp [full, settled, push, goOn, next]

theorem run_copy (k : Int32) : (copy k).run m = m.settled (m.copy k) := by
  unfold copy
  by_cases deep : m.depth ≤ k.toInt
  · have refused : m.copy k = .error (.tooDeep k m.depth) := by
      refine copy_of_deep ?_
      rw [length_values]
      omega
    simp [deep, refused, settled]
  by_cases negative : k.toInt < 0
  · simp [deep, negative, copy_of_neg negative, settled]
  · have held : k.toInt.toNat < m.stack.length := by unfold depth at deep; omega
    have granted : m.copy k = m.grow m.stack[k.toInt.toNat] := by
      rw [copy_of_nonneg (by omega), List.getElem?_eq_getElem held]
    simp [deep, negative, granted, run_grow]

theorem run_combine (g : Int32 → Int32 → Except Cause Int32) :
    (combine g).run m = m.settled (m.combine g) := by
  unfold combine topTwo Machine.combine
  match hs : m.stack with
  | [] => simp [hs, settled]
  | [_] => simp [hs, settled]
  | b :: a :: rest =>
    -- a value that cannot be computed is refused while both operands are still in place
    cases hg : g a b with
    | error cause => simp [hs, hg, settled, MonadExcept.ofExcept]
    | ok v => simp [hs, hg, settled, MonadExcept.ofExcept, setBelow, pop, goOn, next]

theorem run_jump (target : Int32) : (jump target).run m = m.settled (m.jumpTo target) := by
  unfold jump jumpTo
  by_cases out : target.toInt < 0 ∨ m.instructions.length ≤ target.toInt
  · have refused : ¬ (0 ≤ target.toInt ∧ target.toInt < m.instructions.length) := by omega
    simp [out, refused, settled]
  · have granted : 0 ≤ target.toInt ∧ target.toInt < m.instructions.length := by omega
    simp [out, granted, settled, goTo]

theorem run_branch (target : Int32) : (branch target).run m = m.settled (m.branchTo target) := by
  unfold branch top branchTo
  match hs : m.stack with
  | [] => simp [hs, settled]
  | v :: rest =>
    by_cases one : v = 1
    · simp [hs, one, settled, pop, goTo]
    · simp [hs, one, settled, goOn, next]

theorem run_perform (i : Instruction) : (perform i).run m = m.settled (m.execute i) := by
  unfold perform execute
  cases i.opcode? with
  | none => rfl
  | some op =>
    cases op with
    | push => exact run_grow i.operand
    | duplicate => exact run_copy i.operand
    | add | subtract | multiply | divide | equal => exact run_combine _
    | jump => exact run_jump i.operand
    | jumpIfTrue => exact run_branch i.operand
    | halt => rfl

end Work

/-! ### Attempts -/

/-- An attempt has the effect of a step, and none at all if the step faults. -/
theorem attempt_eq (m : Machine) :
    m.attempt = match m.step with
      | .ok t => (t, none)
      | .error f => (m, some f) := by
  unfold attempt step
  by_cases halted : m.halted
  · simp [halted]
  cases hc : m.current? with
  | none => simp [halted]
  | some i =>
    simp only [halted, Work.run_perform]
    cases m.execute i <;> rfl

theorem attempt_of_step (h : m.step = .ok t) : m.attempt = (t, none) := by rw [attempt_eq, h]

theorem attempt_of_fault (h : m.step = .error f) : m.attempt = (m, some f) := by
  rw [attempt_eq, h]

theorem attempt_eq_fault_iff : m.attempt = (t, some f) ↔ t = m ∧ m.step = .error f := by
  rw [attempt_eq]
  cases m.step with
  | ok u => simp
  | error g => simp [eq_comm]

/-- What an attempt can do: nothing if the machine has halted, and what a rule says if not. -/
inductive Attempted (m : Machine) : Machine × Option Fault → Prop where
  | halted : m.halted = true → Attempted m (m, none)
  | done {t : Machine} : m.halted = false → Rule m (.ok t) → Attempted m (t, none)
  | fault {f : Fault} : m.halted = false → Rule m (.error f.kind) → Attempted m (m, some f)

theorem attempted (m : Machine) : m.Attempted m.attempt := by
  rw [attempt_eq]
  cases halted : m.halted with
  | true =>
    rw [step, if_pos halted]
    exact .halted halted
  | false =>
    have rule := rule_of_step halted
    cases hs : m.step with
    | ok t =>
      rw [hs] at rule
      exact .done halted rule
    | error f =>
      rw [hs] at rule
      exact .fault halted rule

theorem attempt_keeps (m : Machine) :
    m.attempt.1.program = m.program ∧ m.attempt.1.limit = m.limit := by
  generalize hm : m.attempt = a
  cases hm ▸ m.attempted with
  | halted | fault => exact ⟨rfl, rfl⟩
  | done _ rule => exact rule.keeps

/-- The machine after `n` attempts, whether they succeed or not. -/
def after (m : Machine) : Nat → Machine
  | 0 => m
  | n + 1 => (m.after n).attempt.1

theorem after_of_fault (h : m.step = .error f) (n : Nat) : m.after n = m := by
  induction n with
  | zero => rfl
  | succ n ih => rw [after, ih, attempt_of_fault h]

theorem after_of_halted (h : m.halted = true) (n : Nat) : m.after n = m := by
  induction n with
  | zero => rfl
  | succ n ih => simp [after, ih, attempt, h]

theorem after_keeps (m : Machine) (n : Nat) :
    (m.after n).program = m.program ∧ (m.after n).limit = m.limit := by
  induction n with
  | zero => exact ⟨rfl, rfl⟩
  | succ n ih =>
    obtain ⟨program, limit⟩ := (m.after n).attempt_keeps
    exact ⟨program.trans ih.1, limit.trans ih.2⟩

/-- A fault says where the machine stands and which tag is there. -/
theorem fault_of_step (h : m.step = .error f) :
    f.pc = m.pc ∧ f.tag = m.current?.map Instruction.tag := by
  unfold step at h
  by_cases halted : m.halted
  · simp [halted] at h
  cases hc : m.current? with
  | none =>
    simp only [halted, hc] at h
    cases h
    exact ⟨rfl, rfl⟩
  | some i =>
    simp only [halted, hc] at h
    cases he : m.execute i with
    | ok u => simp [he] at h
    | error cause =>
      simp only [he] at h
      cases h
      exact ⟨rfl, rfl⟩

theorem fault_opcode_of_fetches {i : Instruction} (h : m.step = .error f) (hi : m.Fetches i) :
    f.opcode = i.name := by
  obtain ⟨-, tag⟩ := fault_of_step h
  rw [fetches_iff.1 hi] at tag
  simp [Fault.opcode, tag, Instruction.name]

theorem fault_opcode_eq_empty_iff (h : m.step = .error f) :
    f.opcode = "" ↔ m.pc < 0 ∨ m.instructions.length ≤ m.pc := by
  rw [← current?_eq_none_iff]
  obtain ⟨-, tag⟩ := fault_of_step h
  cases hc : m.current? with
  | none => simp [Fault.opcode, tag, hc]
  | some i => simp [Fault.opcode, tag, hc, tagName_ne_empty]

/-- An attempt that faults leaves the machine as it was. Its fault is a report about the instruction
where the machine stands, and every further attempt gives the same report. -/
theorem attempt_fault_changes_nothing (m t : Machine) (f : Fault) (h : m.attempt = (t, some f)) :
    t = m ∧
      (∃ r, f.failure = .report r ∧ r.phase = .execute ∧ r.pc = some m.pc ∧
        (∀ i, m.Fetches i → r.opcode = i.name) ∧
        (r.opcode = "" ↔ m.pc < 0 ∨ m.instructions.length ≤ m.pc) ∧
        r.kind ∈ [.stackOverflow, .stackUnderflow, .illegalInstruction, .divisionByZero]) ∧
      ∀ n, t.after n = m ∧ (t.after n).attempt = (m, some f) := by
  obtain ⟨rfl, fault⟩ := attempt_eq_fault_iff.1 h
  obtain ⟨pc, -⟩ := fault_of_step fault
  refine ⟨rfl, ⟨f.report, rfl, rfl, congrArg some pc, ?_, ?_, f.cause.kind_mem⟩, ?_⟩
  · intro i hi
    exact fault_opcode_of_fetches fault hi
  · exact fault_opcode_eq_empty_iff fault
  · intro n
    have same : t.after n = t := after_of_fault fault n
    exact ⟨same, by rw [same, attempt_of_fault fault]⟩

/-- A division by zero keeps both operands on the stack. -/
theorem attempt_divide_by_zero :
    let m : Machine := { stack := [0, 7], program := some [.divide], limit := 2 }
    let f : Fault := ⟨0, some 5, .divisionByZero 7⟩
    m.attempt = (m, some f) ∧ ∀ n, m.after n = m ∧ (m.after n).attempt = (m, some f) :=
  ⟨rfl, (attempt_fault_changes_nothing _ _ _ rfl).2.2⟩

end Machine

end StackMachine
