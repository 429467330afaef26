import StackMachine.Proofs.ControlFlow
import StackMachine.Proofs.RunLoop

/-!
# Programs that only lead forward

A program in which all jumps and branches lead forward has no loops: whatever a step does, it brings
the machine closer to the end of the program, and a branch past the end leaves nothing to execute.
So such a program ends by itself, and a limit that exceeds its length is never reached.
-/

namespace StackMachine

/-- The program may go on where the operand of the instruction says. -/
def Instruction.Redirects (i : Instruction) : Prop :=
  i.opcode? = some .jump ∨ i.opcode? = some .jumpIfTrue

instance (i : Instruction) : Decidable i.Redirects := inferInstanceAs (Decidable (_ ∨ _))

/-- All jumps and branches lead to where they have not been yet, perhaps out of the program. -/
def Program.Forward (p : Program) : Prop :=
  ∀ (n : Nat) (h : n < p.length), p[n].Redirects → n < p[n].operand.toInt

instance (p : Program) : Decidable p.Forward :=
  inferInstanceAs (Decidable (∀ (n : Nat) (_ : n < p.length), _))

namespace Machine

variable {m t : Machine} {i : Instruction} {n : Nat}

/-! ### One step -/

/-- The number of instructions from where the machine stands to the end of its program. -/
def remaining (m : Machine) : Nat := (m.instructions.length - m.pc).toNat

theorem Moves.pc_lt (h : m.Moves i t) (forward : i.Redirects → m.pc < i.operand.toInt) :
    m.pc < t.pc := by
  cases h with
  | next pc | halt _ pc => omega
  | jump op pc => exact pc ▸ forward (.inl op)
  | branch op pc => exact pc ▸ forward (.inr op)

theorem remaining_lt_of_step (forward : m.instructions.Forward) (running : m.halted = false)
    (step : m.step = .ok t) : t.instructions = m.instructions ∧ t.remaining < m.remaining := by
  have rule : Rule m (.ok t) := by
    have rule := rule_of_step running
    rwa [step] at rule
  have same : t.instructions = m.instructions := by rw [instructions, rule.keeps.1, instructions]
  obtain ⟨i, ⟨n, pc, fetched⟩, moves⟩ := rule.moves
  obtain ⟨lt, rfl⟩ := List.getElem?_eq_some_iff.1 fetched
  have further : m.pc < t.pc := by
    apply moves.pc_lt
    intro redirects
    exact pc ▸ forward n lt redirects
  refine ⟨same, ?_⟩
  unfold remaining
  rw [same]
  omega

/-! ### Whole runs -/

/-- Every step that is taken is one instruction less. -/
theorem Advances.add_remaining_le (h : m.Advances n t) (forward : m.instructions.Forward) :
    n + t.remaining ≤ m.remaining := by
  induction h with
  | refl m => omega
  | next running step _ ih =>
    obtain ⟨same, less⟩ := remaining_lt_of_step forward running step
    have rest := ih (same ▸ forward)
    omega

end Machine

namespace Runner

variable {σ : Type} {r : Runner σ} {m : Machine} {o : Outcome σ} {fuel : Nat} {watch : σ}
  {log : Log}

theorem steps_le_remaining (forward : m.instructions.Forward)
    (h : r.run fuel m watch log = some o) : o.steps ≤ m.remaining := by
  obtain ⟨e, q, rfl, leads, -⟩ := exists_of_run h
  have advances : m.Advances e.steps q.machine := leads.advances.1
  exact Nat.le_of_add_right_le (advances.add_remaining_le forward)

/-- A run that is allowed more attempts than there are instructions comes to an end. -/
theorem exists_run_of_forward (forward : m.instructions.Forward)
    (enough : m.remaining < r.attempts fuel) (watch : σ) (log : Log) :
    ∃ o, r.run fuel m watch log = some o := by
  obtain ⟨-, q, leads⟩ | ⟨o, ended, -⟩ := r.proceed_cases (r.attempts fuel) (r.start m watch log)
  · have advances : m.Advances (r.attempts fuel) q.machine := leads.advances.1
    have := advances.add_remaining_le forward
    omega
  · exact ⟨r.closed o, by rw [run_eq, ended, Option.map_some]⟩

/-- Without a reason to cancel it, a run that does not reach its limit halts or faults. -/
theorem stop_of_lt_allowance (h : r.run fuel m watch log = some o) (few : o.steps < r.allowance) :
    o.stop ≠ .limitReached ∧
      (r.Steady → o.machine.halted = true ∧ o.stop = .halted ∨
        ∃ f, o.machine.step = .error f ∧ o.stop = .faulted f) := by
  obtain ⟨e, q, rfl, -, last⟩ := exists_of_run h
  obtain ⟨p, stop⟩ := e
  cases last with
  | halted halted => exact ⟨nofun, fun _ => .inl ⟨halted, rfl⟩⟩
  | cancelled _ stopped => exact ⟨nofun, fun steady => by simp [steady p.watch] at stopped⟩
  | spent _ _ all => exact absurd few all.not_gt
  | fault _ _ _ fault => exact ⟨nofun, fun _ => .inr ⟨_, fault, rfl⟩⟩

/-- A program that only leads forward takes no more steps than there are instructions from where the
machine stands. So it ends by itself with a halt or a fault, and no limit that exceeds its length is
reached. -/
theorem forward_program_ends (m : Machine) (forward : m.instructions.Forward) (lower : 0 ≤ m.pc)
    (upper : m.pc ≤ m.instructions.length) :
    (∀ n t, m.Advances n t → n ≤ m.instructions.length - m.pc) ∧
    ∀ (r : Runner σ) (fuel : Nat) (watch : σ) (log : Log),
      r.config.stepLimit ≤ 0 ∧ m.instructions.length < fuel ∨
        m.instructions.length < r.config.stepLimit →
      ∃ o, r.run fuel m watch log = some o ∧ o.steps ≤ m.instructions.length - m.pc ∧
        o.stop ≠ .limitReached ∧
        (r.Steady → o.machine.halted = true ∧ o.stop = .halted ∨
          ∃ f, o.machine.step = .error f ∧ o.stop = .faulted f) := by
  have remaining : m.remaining = m.instructions.length - m.pc := by
    unfold Machine.remaining
    omega
  refine ⟨?_, ?_⟩
  · intro n t advances
    have := advances.add_remaining_le forward
    omega
  · intro r fuel watch log allowed
    have enough : m.remaining < r.attempts fuel := by
      unfold attempts
      split <;> omega
    obtain ⟨o, run⟩ := exists_run_of_forward forward enough watch log
    have steps : o.steps ≤ m.remaining := steps_le_remaining forward run
    have few : o.steps < r.allowance := lt_allowance_iff.2 (by omega)
    exact ⟨o, run, by omega, stop_of_lt_allowance run few⟩

/-- A branch past the end of the program takes the last step; then there is nothing to execute. -/
theorem branch_past_end_ends :
    let m : Machine := { program := some [.push 1, .jumpIfTrue 9, .jump 3], limit := 1 }
    let r : Runner Unit := { config := {} }
    m.instructions.Forward ∧ 0 ≤ m.pc ∧ m.pc ≤ m.instructions.length ∧
      ∃ o, r.run 4 m () #[] = some o ∧ o.steps ≤ m.instructions.length - m.pc ∧
        (o.machine.halted = true ∧ o.stop = .halted ∨
          ∃ f, o.machine.step = .error f ∧ o.stop = .faulted f) := by
  intro m r
  have forward : m.instructions.Forward := by decide
  obtain ⟨-, ends⟩ := forward_program_ends (σ := Unit) m forward (by decide) (by decide)
  obtain ⟨o, run, steps, -, stop⟩ := ends r 4 () #[] (by decide)
  exact ⟨forward, by decide, by decide, o, run, steps, stop fun _ => rfl⟩

end Runner

end StackMachine
