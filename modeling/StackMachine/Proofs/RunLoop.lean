import StackMachine.Proofs.Suspension

/-!
# Runs, attempt by attempt

`Runner.Leads` is a part of a run in which no attempt stops it, whoever watches the run and whether
or not it is cancelled. A run that ends is such a part and one more attempt. What observers are told
depends on the machine alone: they see the instructions at which it stands between the steps.
-/

namespace StackMachine

/-! ### What is seen of a machine -/

namespace Machine

variable {m t : Machine} {n : Nat}

/-- What is seen when the next instruction is attempted, if there is one. -/
def sighting? (m : Machine) : Option Observation := m.current?.map fun i => ⟨m.pc, i, m.depth⟩

/-- What is seen in `n` attempts, in their order. -/
def sightings (m : Machine) (n : Nat) : List Observation :=
  (List.range n).filterMap fun k => (m.after k).sighting?

theorem sightings_succ (m : Machine) (n : Nat) :
    m.sightings (n + 1) = m.sightings n ++ (m.after n).sighting?.toList := by
  cases seen : (m.after n).sighting? <;> simp [sightings, List.range_succ, seen]

theorem sighting?_eq_none_iff :
    m.sighting? = none ↔ m.pc < 0 ∨ m.instructions.length ≤ m.pc := by
  rw [sighting?, Option.map_eq_none_iff, current?_eq_none_iff]

/-- A step that succeeds executes an instruction. -/
theorem exists_sighting_of_step (running : m.halted = false) (h : m.step = .ok t) :
    ∃ o, m.sighting? = some o := by
  cases hc : m.current? with
  | none => simp [step, running, hc] at h
  | some i => exact ⟨_, by rw [sighting?, hc]; rfl⟩

theorem instructions_after (m : Machine) (n : Nat) :
    (m.after n).instructions = m.instructions := by
  rw [instructions, (m.after_keeps n).1, instructions]

theorem Advances.after_eq (h : m.Advances n t) : m.after n = t := by
  induction h with
  | refl m => rfl
  | next _ step _ ih => rwa [Nat.add_comm, after_add, after, after, attempt_of_step step]

theorem Advances.snoc {u : Machine} (h : m.Advances n t) (running : t.halted = false)
    (step : t.step = .ok u) : m.Advances (n + 1) u :=
  h.trans (.next running step (.refl u))

end Machine

namespace Runner

variable {σ : Type} {r : Runner σ} {p q u : Progress σ} {n : Nat} {stop : Stop}

/-! ### Observers -/

/-- Tells all observers, in their order. -/
def tell (r : Runner σ) (watch : σ) (o : Observation) : σ :=
  r.observers.foldl (fun watch f => f o watch) watch

theorem observe_eq (r : Runner σ) (m : Machine) (watch : σ) :
    r.observe m watch = m.sighting?.toList.foldl r.tell watch := by
  unfold observe Machine.sighting?
  cases ho : r.observers with
  | nil => cases m.current? <;> simp [tell, ho]
  | cons f fs => cases m.current? <;> simp [tell, ho]

/-! ### Parts of a run -/

/-- The run takes `n` steps from `p` to `q`, and no attempt stops it. -/
inductive Leads (r : Runner σ) (p : Progress σ) : Nat → Progress σ → Prop where
  | refl : Leads r p 0 p
  | next {n : Nat} {q u : Progress σ} : Leads r p n q → r.advance q = (u, none) →
      Leads r p (n + 1) u

theorem Leads.cons (first : r.advance p = (u, none)) (h : r.Leads u n q) :
    r.Leads p (n + 1) q := by
  induction h with
  | refl => exact .next .refl first
  | next _ last ih => exact .next ih last

theorem Leads.advances (h : r.Leads p n q) :
    p.machine.Advances n q.machine ∧ q.steps = p.steps + n := by
  induction h with
  | refl => exact ⟨.refl _, rfl⟩
  | next _ last ih =>
    obtain ⟨advances, steps⟩ := ih
    cases advance_eq_iff.1 last with
    | step running _ _ step => exact ⟨advances.snoc running step, by grind⟩

theorem Leads.machine (h : r.Leads p n q) : q.machine = p.machine.after n :=
  h.advances.1.after_eq.symm

theorem Leads.within (h : r.Leads p n q) (within : p.steps ≤ r.allowance) :
    q.steps ≤ r.allowance := by
  cases h with
  | refl => exact within
  | next _ last =>
    cases advance_eq_iff.1 last with
    | step _ _ few _ => exact Order.add_one_le_of_lt few

/-- As long as the run goes on, every attempt shows an instruction. -/
theorem Leads.length_sightings (h : r.Leads p n q) : (p.machine.sightings n).length = n := by
  induction h with
  | refl => rfl
  | next before last ih =>
    cases advance_eq_iff.1 last with
    | step running _ _ step =>
      obtain ⟨o, seen⟩ := Machine.exists_sighting_of_step running step
      rw [Machine.sightings_succ, ← before.machine, seen]
      simp [ih]

theorem Leads.watch_eq (h : r.Leads p n q) :
    q.watch = (p.machine.sightings n).foldl r.tell p.watch := by
  induction h with
  | refl => rfl
  | next before last ih =>
    cases advance_eq_iff.1 last with
    | step =>
      rw [Machine.sightings_succ, List.foldl_append, ← ih, ← before.machine]
      exact observe_eq ..

end Runner

/-! ### Whole runs -/

/-- The number of instructions that were attempted in vain before the run stopped. -/
def Stop.attempts : Stop → Nat
  | faulted _ => 1
  | halted | limitReached | cancelled => 0

/-- The number of instructions that the run attempted, the one that faulted among them. -/
def Outcome.attempts {σ : Type} (o : Outcome σ) : Nat := o.steps + o.stop.attempts

namespace Runner

variable {σ : Type} {r : Runner σ} {m : Machine} {p q : Progress σ} {o : Outcome σ} {k fuel : Nat}
  {watch : σ} {log : Log}

theorem Leads.watch_of_stop (leads : r.Leads p k q)
    (last : r.Attempt q (o.toProgress, some o.stop)) :
    o.watch = (p.machine.sightings (k + o.stop.attempts)).foldl r.tell p.watch := by
  have before := leads.watch_eq
  obtain ⟨e, stop⟩ := o
  cases last with
  | halted | cancelled | spent => exact before
  | fault =>
    change r.observe q.machine q.watch = _
    rw [observe_eq, before, leads.machine]
    simp [Stop.attempts, Machine.sightings_succ]

/-- A run either goes on for as many steps as there are attempts, or takes fewer steps to where an
attempt stops it. -/
theorem proceed_cases (r : Runner σ) (n : Nat) (p : Progress σ) :
    (r.proceed n p = none ∧ ∃ q, r.Leads p n q) ∨
      ∃ o, r.proceed n p = some o ∧ ∃ k < n, ∃ q, r.Leads p k q ∧
        r.Attempt q (o.toProgress, some o.stop) := by
  induction n generalizing p with
  | zero => exact .inl ⟨rfl, p, .refl⟩
  | succ n ih =>
    rcases first : r.advance p with ⟨u, _ | stop⟩
    · have rest : r.proceed (n + 1) p = r.proceed n u := by simp [proceed, first]
      rw [rest]
      obtain ⟨unended, q, leads⟩ | ⟨o, ended, k, lt, q, leads, last⟩ := ih u
      · exact .inl ⟨unended, q, leads.cons first⟩
      · exact .inr ⟨o, ended, k + 1, by omega, q, leads.cons first, last⟩
    · refine .inr ⟨⟨u, stop⟩, by simp [proceed, first], 0, by omega, p, .refl, ?_⟩
      exact advance_eq_iff.1 first

/-- A run before its first attempt. -/
def start (r : Runner σ) (m : Machine) (watch : σ) (log : Log) : Progress σ :=
  { machine := m, watch, log := log.write r.threshold [r.startEntry m] }

/-- The outcome with its entry in the log. -/
def closed (r : Runner σ) (o : Outcome σ) : Outcome σ :=
  { o with log := o.log.write r.threshold [stopEntry o] }

theorem run_eq (r : Runner σ) (fuel : Nat) (m : Machine) (watch : σ) (log : Log) :
    r.run fuel m watch log = (r.proceed (r.attempts fuel) (r.start m watch log)).map r.closed := rfl

/-- A run that ends has taken its steps to where an attempt stopped it. -/
theorem exists_of_run (h : r.run fuel m watch log = some o) :
    ∃ e q, o = r.closed e ∧ r.Leads (r.start m watch log) e.steps q ∧
      r.Attempt q (e.toProgress, some e.stop) := by
  rw [run_eq] at h
  obtain ⟨e, ended, rfl⟩ := Option.map_eq_some_iff.1 h
  obtain ⟨unended, -⟩ | ⟨e', ended', k, -, q, leads, last⟩ :=
    r.proceed_cases (r.attempts fuel) (r.start m watch log)
  · simp [unended] at ended
  · obtain rfl : e' = e := Option.some.inj (ended'.symm.trans ended)
    have steps : e'.steps = k := by
      simpa [start] using last.of_stop.2.trans leads.advances.2
    exact ⟨e', q, rfl, steps ▸ leads, last⟩

/-- A run that ends has told its observers about all instructions that it attempted. -/
theorem watch_of_run (h : r.run fuel m watch log = some o) :
    o.watch = (m.sightings o.attempts).foldl r.tell watch := by
  obtain ⟨e, q, rfl, leads, last⟩ := exists_of_run h
  have told : e.watch = (m.sightings e.attempts).foldl r.tell watch := leads.watch_of_stop last
  exact told

end Runner

end StackMachine
