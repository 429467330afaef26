import Mathlib.Data.ENat.Lattice
import StackMachine.Proofs.RunLoop

/-!
# Cancelled runs

A run that is cancelled after `j` steps goes as far as a run that may take `j` steps. The two differ
only in the reason that is given where the second one reaches its limit: cancellation is looked at
before the configured limit, so that limit is named only if it is the smaller one.
-/

namespace StackMachine

namespace Stop

/-- The reason to stop of a run that is cancelled after `j` steps under a configured limit, given
that of a run that may take no more than `j` steps. -/
def cancelledAfter (limit : Int) (j : Nat) : Stop → Stop
  | limitReached => if 0 < limit ∧ limit < j then limitReached else cancelled
  | stop => stop

/-- The reason to stop with cancellation taken for a limit. -/
def asLimit : Stop → Stop
  | cancelled => limitReached
  | stop => stop

end Stop

namespace Runner

variable {σ : Type} {r : Runner σ} {m : Machine} {p q : Progress σ} {o : Outcome σ} {j n fuel : Nat}
  {watch : σ} {log : Log}

/-- Whenever it is looked at in the run from `p` on, the run is cancelled if it has taken `j` steps
or more, and not before. -/
def CancelledAfter (r : Runner σ) (j : Nat) (p : Progress σ) : Prop :=
  ∀ n q, r.Leads p n q → q.machine.halted = false → (r.cancelled q.watch = true ↔ j ≤ n)

/-- The configured limit or `j`, whichever is smaller. -/
def cut (r : Runner σ) (j : Nat) : Int :=
  if 0 < r.config.stepLimit then min r.config.stepLimit j else j

/-- Where no cancellation is seen, fewer than `j` steps have been taken. -/
theorem CancelledAfter.lt_of_live (cancel : r.CancelledAfter j p) (leads : r.Leads p n q)
    (running : q.machine.halted = false) (live : r.cancelled q.watch = false) : n < j := by
  rw [← not_le, ← cancel n q leads running, live]
  decide

theorem Leads.le_of_cancelledAfter (cancel : r.CancelledAfter j p) (h : r.Leads p n q) :
    n ≤ j := by
  cases h with
  | refl => exact Nat.zero_le j
  | next before last =>
    cases advance_eq_iff.1 last with
    | step running live => exact cancel.lt_of_live before running live

/-- A cancelled run is one under the smaller of its two limits. -/
theorem CancelledAfter.runs (cancel : r.CancelledAfter j p) (fresh : p.steps = 0)
    (leads : r.Leads p n q) (last : r.Attempt q (o.toProgress, some o.stop)) :
    p.machine.Runs (min r.allowance j) n o.machine o.stop.asLimit := by
  obtain ⟨advances, steps⟩ := leads.advances
  rw [fresh, Nat.zero_add] at steps
  have within : (n : ℕ∞) ≤ min r.allowance j := by
    refine le_min ?_ (Nat.cast_le.2 (leads.le_of_cancelledAfter cancel))
    exact steps ▸ leads.within (by simp [fresh])
  obtain ⟨e, stop⟩ := o
  refine ⟨last.of_stop.1 ▸ advances, within, ?_⟩
  cases last with
  | halted halted => exact halted
  | cancelled running stopped =>
    have late : (j : ℕ∞) ≤ n := Nat.cast_le.2 ((cancel n _ leads running).1 stopped)
    exact ⟨running, le_antisymm within ((min_le_right _ _).trans late)⟩
  | spent running live spent =>
    rw [steps] at spent
    exact ⟨running, le_antisymm within ((min_le_left _ _).trans spent)⟩
  | fault running live few step =>
    rw [steps] at few
    have early : (n : ℕ∞) < j := Nat.cast_lt.2 (cancel.lt_of_live leads running live)
    exact ⟨running, lt_min few early, step⟩

/-- The configured limit is named only if it is the smaller one. -/
theorem CancelledAfter.stop_eq (cancel : r.CancelledAfter j p) (fresh : p.steps = 0)
    (leads : r.Leads p n q) (last : r.Attempt q (o.toProgress, some o.stop)) :
    o.stop = o.stop.asLimit.cancelledAfter r.config.stepLimit j := by
  have steps := leads.advances.2
  rw [fresh, Nat.zero_add] at steps
  have within : (n : ℕ∞) ≤ r.allowance := steps ▸ leads.within (by simp [fresh])
  obtain ⟨e, stop⟩ := o
  cases last with
  | halted | fault => rfl
  | cancelled running stopped =>
    have late := (cancel n _ leads running).1 stopped
    rw [le_allowance_iff] at within
    have above : ¬ (0 < r.config.stepLimit ∧ r.config.stepLimit < j) := by omega
    exact (if_neg above).symm
  | spent running live spent =>
    have early := cancel.lt_of_live leads running live
    rw [steps, ← not_lt, lt_allowance_iff] at spent
    have below : 0 < r.config.stepLimit ∧ r.config.stepLimit < j := by omega
    exact (if_pos below).symm

/-- A cancelled run ends, even if there is no limit. -/
theorem CancelledAfter.exists_run (cancel : r.CancelledAfter j (r.start m watch log))
    (enough : 0 < r.config.stepLimit ∨ j < fuel) :
    ∃ o, r.run fuel m watch log = some o ∧
      m.Runs (min r.allowance j) o.steps o.machine o.stop.asLimit ∧
      o.stop = o.stop.asLimit.cancelledAfter r.config.stepLimit j := by
  obtain ⟨-, q, leads⟩ | ⟨o, ended, k, -, q, leads, last⟩ :=
    r.proceed_cases (r.attempts fuel) (r.start m watch log)
  · have le := leads.le_of_cancelledAfter cancel
    have within := leads.within (by simp [start])
    rw [leads.advances.2, le_allowance_iff] at within
    simp only [start, attempts] at le within
    split at le <;> split at within <;> omega
  · obtain rfl : o.steps = k := by simpa [start] using last.of_stop.2.trans leads.advances.2
    have runs := cancel.runs rfl leads last
    have stop := cancel.stop_eq rfl leads last
    exact ⟨r.closed o, by rw [run_eq, ended]; rfl, runs, stop⟩

end Runner

end StackMachine
