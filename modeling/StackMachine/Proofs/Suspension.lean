import StackMachine.Proofs.StepLimits
import StackMachine.Snapshot

/-!
# Suspended runs

A snapshot holds all that the further course of a machine depends on, except for the bound on its
stack. So a machine that is restored under the same bound takes the same steps as the one that the
snapshot was taken of, and a run that is suspended and resumed ends like one that is not.
-/

namespace StackMachine

namespace Machine

/-- The machine that is restored from a snapshot under the same bound. -/
def resumed (m : Machine) : Machine := restore m.snapshot m.limit

theorem resumed_eq (m : Machine) : m.resumed = m := by
  cases m
  simp [resumed, restore, snapshot, values, empty]

theorem snapshot_restore_iff (s : Snapshot) (maxStack : Int) :
    (restore s maxStack).snapshot = s ↔ s.stack ≠ none := by
  obtain ⟨stack, program, pc, halted⟩ := s
  cases stack <;> simp [restore, snapshot, values]

theorem after_add (m : Machine) (k n : Nat) : m.after (k + n) = (m.after k).after n := by
  induction n with
  | zero => rfl
  | succ n ih => rw [after, ← ih, ← Nat.add_assoc, after]

end Machine

namespace Runner

variable {σ : Type} {r : Runner σ} {m u : Machine} {k fuel : Nat}

/-- The same runner with `k` steps more, if there is a limit at all. -/
def extended (r : Runner σ) (k : Nat) : Runner σ :=
  if 0 < r.config.stepLimit then r.limited (k + r.config.stepLimit) else r

theorem Steady.extended (steady : r.Steady) (k : Nat) : (r.extended k).Steady := by
  unfold Runner.extended
  split
  · exact steady.limited _
  · exact steady

theorem allowance_extended (r : Runner σ) (k : Nat) :
    (r.extended k).allowance = k + r.allowance := by
  unfold extended
  split
  · rw [allowance_limited (by omega), allowance, if_pos ‹_›, ← Nat.cast_add]
    congr
    omega
  · simp [allowance, *]

theorem attempts_extended (r : Runner σ) (k fuel : Nat) :
    (r.extended k).attempts (k + fuel) = k + r.attempts fuel := by
  unfold extended
  split
  · rw [attempts, stepLimit_limited, if_pos (by omega), attempts, if_pos ‹_›]
    omega
  · simp [attempts, *]

/-- A run that is given `k` steps more ends like the run from where `k` steps lead, with `k` more
steps in its result; it does not end if that run does not. -/
theorem run_extended (steady : r.Steady) (first : m.Advances k u) (fuel : Nat)
    (watch watch' : σ) (log log' : Log) :
    ((r.extended k).run (k + fuel) m watch log).map (fun o => (o.machine, o.result)) =
      (r.run fuel u watch' log').map fun o =>
        (o.machine, { o.result with steps := k + o.result.steps }) := by
  cases rest : r.run fuel u watch' log' with
  | some o =>
    obtain ⟨h, lt⟩ := run_sound steady rest
    have whole := h.prepend first
    rw [← allowance_extended] at whole
    have enough : k + o.steps < (r.extended k).attempts (k + fuel) := by
      rw [attempts_extended]
      omega
    obtain ⟨e, run, steps, machine, stop⟩ :=
      run_of_runs (steady.extended k) whole enough watch log
    simp [run, Outcome.result, steps, machine, stop]
  | none =>
    cases run : (r.extended k).run (k + fuel) m watch log with
    | none => rfl
    | some e =>
      -- the rest of a run that ends does end
      obtain ⟨h, lt⟩ := run_sound (steady.extended k) run
      rw [allowance_extended] at h
      rw [attempts_extended] at lt
      obtain ⟨s, steps, h'⟩ := h.rest first
      have enough : s < r.attempts fuel := by omega
      obtain ⟨o, ended, -⟩ := run_of_runs steady h' enough watch' log'
      simp [rest] at ended

end Runner

open Machine in
/-- A machine that is restored from its snapshot stays in lock step with the one that was not, and a
run that is suspended after any number of steps and resumed ends like one that was not suspended. A
snapshot that has a stack is kept by restoring it. -/
theorem resume_from_snapshot (m : Machine) :
    (∀ n, (m.resumed.after n).attempt.2 = (m.after n).attempt.2 ∧
      (m.resumed.after n).values = (m.after n).values ∧
      (m.resumed.after n).pc = (m.after n).pc ∧
      (m.resumed.after n).halted = (m.after n).halted ∧
      (m.resumed.after n).program = (m.after n).program) ∧
    (∀ k n, (m.after k).resumed.after n = m.after (k + n)) ∧
    (∀ (σ : Type) (r : Runner σ) fuel watch log,
      r.run fuel m.resumed watch log = r.run fuel m watch log) ∧
    (∀ (σ : Type) (r : Runner σ) k u, r.Steady → m.Advances k u → ∀ fuel watch watch' log log',
      ((r.extended k).run (k + fuel) m watch log).map (fun o => (o.machine, o.result)) =
        (r.run fuel u.resumed watch' log').map fun o =>
          (o.machine, { o.result with steps := k + o.result.steps })) ∧
    ∀ s maxStack, s.stack ≠ none → (restore s maxStack).snapshot = s := by
  refine ⟨?_, ?_, ?_, ?_, ?_⟩
  · intro n
    rw [resumed_eq]
    exact ⟨rfl, rfl, rfl, rfl, rfl⟩
  · intro k n
    rw [resumed_eq, after_add]
  · intro σ r fuel watch log
    rw [resumed_eq]
  · intro σ r k u steady first fuel watch watch' log log'
    rw [resumed_eq]
    exact Runner.run_extended steady first fuel watch watch' log log'
  · intro s maxStack held
    exact (snapshot_restore_iff s maxStack).2 held

/-- A loop without end, suspended at its first step and resumed for three more. -/
theorem resume_loop :
    let r : Runner Unit := { config := { stepLimit := 3 } }
    let m : Machine := { program := some [.push 1, .jumpIfTrue 0] }
    let u : Machine := { m with stack := [1], pc := 1 }
    r.Steady ∧ m.Advances 1 u ∧
      ((r.extended 1).run (1 + 0) m () #[]).map (fun o => (o.machine, o.result)) =
        (r.run 0 u.resumed () #[]).map fun o =>
          (o.machine, { o.result with steps := 1 + o.result.steps }) := by
  intro r m u
  have steady : r.Steady := fun _ => rfl
  have first : m.Advances 1 u := .next rfl rfl (.refl u)
  obtain ⟨-, -, -, runs, -⟩ := resume_from_snapshot m
  exact ⟨steady, first, runs Unit r 1 u steady first 0 () () #[] #[]⟩

end StackMachine
