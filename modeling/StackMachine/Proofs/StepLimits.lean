import Mathlib.Order.Bounds.Defs
import StackMachine.Proofs.Runs

/-!
# Runs under a step limit

`Runner.Attempt` is all that one attempt of a run can do, and what `Runner.run` does to a machine is
what `Machine.Runs` says, as long as nothing cancels it. So a run under a limit is bounded iteration
of `Machine.step`, its result does not depend on a limit that it does not reach, and limits add up.
-/

namespace StackMachine

namespace Runner

variable {σ : Type} {r : Runner σ} {m t : Machine} {p q : Progress σ} {o : Outcome σ}
  {s n fuel : Nat} {stop : Stop} {watch : σ} {log : Log}

/-- Nothing cancels the run. -/
def Steady (r : Runner σ) : Prop := ∀ watch, r.cancelled watch = false

/-- The number of steps that a run may take; without a limit it may take any number. -/
def allowance (r : Runner σ) : ℕ∞ :=
  if 0 < r.config.stepLimit then r.config.stepLimit.toNat else ⊤

theorem le_allowance_iff :
    s ≤ r.allowance ↔ (0 < r.config.stepLimit → s ≤ r.config.stepLimit) := by
  unfold allowance
  split
  · rw [Nat.cast_le]
    omega
  · simp [*]

theorem lt_allowance_iff :
    s < r.allowance ↔ (0 < r.config.stepLimit → s < r.config.stepLimit) := by
  unfold allowance
  split
  · rw [Nat.cast_lt]
    omega
  · simp [*]

theorem isSpent_eq_false_iff : r.isSpent s = false ↔ s < r.allowance := by
  rw [lt_allowance_iff]
  simp [isSpent]

theorem isSpent_eq_true_iff : r.isSpent s = true ↔ r.allowance ≤ s := by
  rw [← not_lt, ← isSpent_eq_false_iff, Bool.not_eq_false]

/-! ### One attempt -/

/-- The run when its observers and the log know about the next instruction. -/
def told (r : Runner σ) (p : Progress σ) : Progress σ :=
  { p with
    watch := r.observe p.machine p.watch
    log := p.machine.traceStep r.machineThreshold p.log }

/-- What an attempt can do. The reasons to stop are looked at in this order. -/
inductive Attempt (r : Runner σ) (p : Progress σ) : Progress σ × Option Stop → Prop where
  | halted : p.machine.halted = true → Attempt r p (p, some .halted)
  | cancelled : p.machine.halted = false → r.cancelled p.watch = true →
      Attempt r p (p, some .cancelled)
  | spent : p.machine.halted = false → r.cancelled p.watch = false → r.allowance ≤ p.steps →
      Attempt r p (p, some .limitReached)
  | fault {f : Fault} : p.machine.halted = false → r.cancelled p.watch = false →
      p.steps < r.allowance → p.machine.step = .error f →
      Attempt r p (r.told p, some (.faulted f))
  | step {t : Machine} : p.machine.halted = false → r.cancelled p.watch = false →
      p.steps < r.allowance → p.machine.step = .ok t →
      Attempt r p ({ r.told p with machine := t, steps := p.steps + 1 }, none)

theorem advance_of_fault {f : Fault} (running : p.machine.halted = false)
    (live : r.cancelled p.watch = false) (unspent : r.isSpent p.steps = false)
    (step : p.machine.step = .error f) : r.advance p = (r.told p, some (.faulted f)) := by
  simp [advance, running, live, unspent, Machine.attempt_of_fault step, told]

theorem advance_of_step (running : p.machine.halted = false)
    (live : r.cancelled p.watch = false) (unspent : r.isSpent p.steps = false)
    (step : p.machine.step = .ok t) :
    r.advance p = ({ r.told p with machine := t, steps := p.steps + 1 }, none) := by
  simp [advance, running, live, unspent, Machine.attempt_of_step step, told]

theorem advance_eq_iff {a : Progress σ × Option Stop} : r.advance p = a ↔ r.Attempt p a := by
  constructor
  · rintro rfl
    cases halted : p.machine.halted with
    | true => simpa [advance, halted] using Attempt.halted (r := r) halted
    | false =>
      cases live : r.cancelled p.watch with
      | true => simpa [advance, halted, live] using Attempt.cancelled (r := r) halted live
      | false =>
        cases spent : r.isSpent p.steps with
        | true =>
          have all := isSpent_eq_true_iff.1 spent
          simpa [advance, halted, live, spent] using Attempt.spent halted live all
        | false =>
          have few := isSpent_eq_false_iff.1 spent
          cases step : p.machine.step with
          | error f =>
            rw [advance_of_fault halted live spent step]
            exact .fault halted live few step
          | ok t =>
            rw [advance_of_step halted live spent step]
            exact .step halted live few step
  · intro h
    cases h with
    | halted halted => simp [advance, halted]
    | cancelled halted live => simp [advance, halted, live]
    | spent halted live all => simp [advance, halted, live, isSpent_eq_true_iff.2 all]
    | fault halted live few step =>
      exact advance_of_fault halted live (isSpent_eq_false_iff.2 few) step
    | step halted live few step =>
      exact advance_of_step halted live (isSpent_eq_false_iff.2 few) step

/-- An attempt that stops the run leaves the machine and the number of steps as they were. -/
theorem Attempt.of_stop (h : r.Attempt p (q, some stop)) :
    q.machine = p.machine ∧ q.steps = p.steps := by
  cases h <;> exact ⟨rfl, rfl⟩

/-! ### The loop of a run -/

/-- What an attempt does if nothing cancels the run: it stops where it stands, or takes one step. -/
theorem advance_cases (steady : r.Steady) (within : p.steps ≤ r.allowance) :
    ∃ p', (∃ stop, r.advance p = (p', some stop) ∧ p'.machine = p.machine ∧ p'.steps = p.steps ∧
        stop.Due r.allowance p.steps p.machine) ∨
      (r.advance p = (p', none) ∧ p.machine.Advances 1 p'.machine ∧ p'.steps = p.steps + 1 ∧
        p'.steps ≤ r.allowance) := by
  generalize attempt : r.advance p = a
  cases advance_eq_iff.1 attempt with
  | halted halted => exact ⟨p, .inl ⟨_, rfl, rfl, rfl, halted⟩⟩
  | cancelled _ stopped => simp [steady p.watch] at stopped
  | spent running _ spent =>
    exact ⟨p, .inl ⟨_, rfl, rfl, rfl, running, within.antisymm spent⟩⟩
  | fault running _ few step => exact ⟨_, .inl ⟨_, rfl, rfl, rfl, running, few, step⟩⟩
  | step running _ few step =>
    exact ⟨_, .inr ⟨rfl, .next running step (.refl _), rfl, Order.add_one_le_of_lt few⟩⟩

/-- A run that ends has taken steps to where it has reason to stop. -/
theorem proceed_sound (steady : r.Steady) (within : p.steps ≤ r.allowance)
    (h : r.proceed n p = some o) :
    ∃ k < n, o.steps = p.steps + k ∧ p.machine.Advances k o.machine ∧ o.steps ≤ r.allowance ∧
      o.stop.Due r.allowance o.steps o.machine := by
  induction n generalizing p with
  | zero => cases h
  | succ n ih =>
    unfold proceed at h
    obtain ⟨p', ⟨stop, eq, machine, steps, due⟩ | ⟨eq, one, steps, within'⟩⟩ :=
      advance_cases steady within
    · simp only [eq, Option.some.injEq] at h
      subst h
      refine ⟨0, by omega, steps, ?_, ?_, ?_⟩
      · exact machine ▸ .refl _
      · exact steps ▸ within
      · exact steps ▸ machine ▸ due
    · simp only [eq] at h
      obtain ⟨k, lt, hk, rest, within'', due⟩ := ih within' h
      refine ⟨1 + k, by omega, by omega, one.trans rest, within'', due⟩

/-- A run that has not ended after `n` attempts has taken `n` steps. -/
theorem advances_of_proceed_eq_none (steady : r.Steady) (within : p.steps ≤ r.allowance)
    (h : r.proceed n p = none) :
    ∃ t, p.machine.Advances n t ∧ (p.steps + n : Nat) ≤ r.allowance := by
  induction n generalizing p with
  | zero => exact ⟨p.machine, .refl _, within⟩
  | succ n ih =>
    unfold proceed at h
    obtain ⟨p', ⟨stop, eq, -⟩ | ⟨eq, one, steps, within'⟩⟩ := advance_cases steady within
    · simp [eq] at h
    · simp only [eq] at h
      obtain ⟨t, rest, le⟩ := ih within' h
      have count : p.steps + (n + 1) = p'.steps + n := by omega
      exact ⟨t, Nat.add_comm 1 n ▸ one.trans rest, count ▸ le⟩

theorem run_sound (steady : r.Steady) (h : r.run fuel m watch log = some o) :
    m.Runs r.allowance o.steps o.machine o.stop ∧ o.steps < r.attempts fuel := by
  unfold run at h
  obtain ⟨e, he, rfl⟩ := Option.map_eq_some_iff.1 h
  obtain ⟨k, lt, steps, advances, within, due⟩ := proceed_sound steady (by simp) he
  obtain rfl : e.steps = k := by simpa using steps
  exact ⟨⟨advances, within, due⟩, lt⟩

/-- Every run that has reason to stop within the attempts that are made does so. -/
theorem run_of_runs (steady : r.Steady) (h : m.Runs r.allowance s t stop)
    (lt : s < r.attempts fuel) (watch : σ) (log : Log) :
    ∃ o, r.run fuel m watch log = some o ∧ o.steps = s ∧ o.machine = t ∧ o.stop = stop := by
  cases ho : r.run fuel m watch log with
  | some o => exact ⟨o, rfl, h.unique (run_sound steady ho).1⟩
  | none =>
    unfold run at ho
    obtain ⟨u, advances, le⟩ :=
      advances_of_proceed_eq_none steady (by simp) (Option.map_eq_none_iff.1 ho)
    have := h.greatest (by simpa using le) advances
    omega

/-! ### Limits -/

/-- The same runner under another limit. -/
def limited (r : Runner σ) (limit : Int) : Runner σ :=
  { r with config := { r.config with stepLimit := limit } }

@[simp] theorem stepLimit_limited (limit : Int) : (r.limited limit).config.stepLimit = limit := rfl

theorem Steady.limited (steady : r.Steady) (limit : Int) : (r.limited limit).Steady := steady

theorem allowance_limited {limit : Int} (pos : 0 < limit) :
    (r.limited limit).allowance = limit.toNat := if_pos pos

theorem lt_attempts (within : s ≤ r.allowance) (enough : 0 < r.config.stepLimit ∨ s < fuel) :
    s < r.attempts fuel := by
  rw [le_allowance_iff] at within
  unfold attempts
  split <;> omega

/-- A run under a limit always ends. -/
theorem Steady.exists_run (steady : r.Steady) {limit : Int} (pos : 0 < limit) (m : Machine)
    (fuel : Nat) (watch : σ) (log : Log) :
    ∃ o, (r.limited limit).run fuel m watch log = some o ∧
      m.Runs limit.toNat o.steps o.machine o.stop := by
  rw [← allowance_limited (r := r) pos]
  obtain ⟨s, t, stop, h⟩ := m.exists_runs limit.toNat
  rw [← allowance_limited (r := r) pos] at h
  obtain ⟨o, run, rfl, rfl, rfl⟩ :=
    run_of_runs (steady.limited limit) h (lt_attempts h.within (.inl pos)) watch log
  exact ⟨o, run, h⟩

/-! ### Results -/

/-- The ways in which a run under a limit can end. -/
inductive Verdict where
  | halted
  | faulted
  | limitReached

/-- What each way of ending says about the machine that is left and the result. -/
def Verdict.Holds (limit : Nat) (t : Machine) (res : Result) : Verdict → Prop
  | halted => t.halted = true ∧ res.failure = none ∧ res.fault = .ok
  | faulted => t.halted = false ∧ res.steps < limit ∧ ∃ f, t.step = .error f ∧
      res.failure = some f.failure ∧ res.fault = f.kind ∧ res.fault.isFault = true
  | limitReached => t.halted = false ∧ res.steps = limit ∧
      res.failure = Stop.limitReached.failure? ∧ res.fault = .ok

theorem Verdict.Holds.unique {limit : Nat} {res : Result} {v v' : Verdict}
    (h : v.Holds limit t res) (h' : v'.Holds limit t res) : v = v' := by
  cases v <;> cases v' <;> simp_all [Holds]

/-- Two runs in a row are one run under the sum of their limits, wherever the first one stopped. -/
theorem run_then_run (r : Runner σ) (steady : r.Steady) (m : Machine) (a b : Int) (ha : 0 < a)
    (hb : 0 < b) (fuel₁ fuel₂ fuel : Nat) (watch₁ watch₂ watch : σ) (log₁ log₂ log : Log) :
    ∃ o₁ o₂ o, (r.limited a).run fuel₁ m watch₁ log₁ = some o₁ ∧
      (r.limited b).run fuel₂ o₁.machine watch₂ log₂ = some o₂ ∧
      (r.limited (a + b)).run fuel m watch log = some o ∧ o₂.machine = o.machine ∧
      o.result = { o₂.result with steps := o₁.result.steps + o₂.result.steps } := by
  obtain ⟨o₁, run₁, h₁⟩ := steady.exists_run ha m fuel₁ watch₁ log₁
  obtain ⟨o₂, run₂, h₂⟩ := steady.exists_run hb o₁.machine fuel₂ watch₂ log₂
  obtain ⟨o, run, h⟩ := steady.exists_run (Int.add_pos ha hb) m fuel watch log
  have both : m.Runs (a + b).toNat (o₁.steps + o₂.steps) o₂.machine o₂.stop := by
    rw [Int.toNat_add ha.le hb.le, Nat.cast_add]
    exact h₁.append h₂ (by simpa using hb)
  obtain ⟨steps, machine, stop⟩ := h.unique both
  exact ⟨o₁, o₂, o, run₁, run₂, run, machine, by simp [Outcome.result, steps, machine, stop]⟩

/-- The limits of two runs may cut a loop anywhere. -/
theorem run_then_run_of_loop :
    let r : Runner Unit := { config := {} }
    let m : Machine := { program := some [.push 1, .jumpIfTrue 0] }
    r.Steady ∧ ∃ o₁ o₂ o, (r.limited 3).run 0 m () #[] = some o₁ ∧
      (r.limited 4).run 0 o₁.machine () #[] = some o₂ ∧
      (r.limited (3 + 4)).run 0 m () #[] = some o ∧ o₂.machine = o.machine ∧
      o.result = { o₂.result with steps := o₁.result.steps + o₂.result.steps } :=
  ⟨fun _ => rfl,
    run_then_run _ (fun _ => rfl) _ 3 4 (by decide) (by decide) 0 0 0 () () () #[] #[] #[]⟩

end Runner

end StackMachine
