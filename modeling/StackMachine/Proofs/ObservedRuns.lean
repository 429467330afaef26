import Mathlib.Data.Option.Basic
import StackMachine.Proofs.RunLoop

/-!
# Observed runs

Observers and the log of the machine give two accounts of a run, and both are `Machine.sightings`:
an instruction is shown once to every observer, in the order of the observers, and leaves one entry
in the log, whether or not it succeeds afterwards. Runs in the same position do the same, whoever
watches them, so observers and logs have no influence on a run unless an observer cancels it.
-/

namespace StackMachine

/-! ### Entries about steps -/

/-- What an instruction leaves in the log of a machine when it is attempted. -/
def Observation.entry (o : Observation) : Log.Entry :=
  { level := .debug, source := "machine", message := "step",
    fields := [("pc", .number o.pc), ("opcode", .text o.instruction.name),
      ("operand", .number o.instruction.operand.toInt), ("depth", .number o.depth)] }

namespace Log

def Entry.isStep (e : Entry) : Bool := e.source = "machine" && e.message = "step"

/-- The entries of machines about steps. -/
def steps (log : Log) : List Entry := log.toList.filter Entry.isStep

theorem steps_write (log : Log) (t : Threshold) (entries : List Entry) :
    (log.write t entries).steps =
      log.steps ++ entries.filter fun e => e.isStep && t.keeps e.level := by
  induction entries generalizing log with
  | nil => simp [write]
  | cons e entries ih =>
    have rest : log.write t (e :: entries) =
        write (if t.keeps e.level then log.push e else log) t entries := rfl
    rw [rest, ih, List.filter_cons]
    cases kept : t.keeps e.level <;> cases step : e.isStep <;> simp [steps, step]

end Log

namespace Machine

variable {m : Machine}

theorem steps_traceStep {t : Threshold} (debug : t.keeps .debug = true)
    (running : m.halted = false) (log : Log) :
    (m.traceStep t log).steps = log.steps ++ m.sighting?.toList.map Observation.entry := by
  rw [traceStep, if_pos debug, Log.steps_write, stepEntries, sighting?]
  cases m.current? with
  | none => simp [running]
  | some i =>
    have same : m.stepEntry i = Observation.entry ⟨m.pc, i, m.depth⟩ := rfl
    have step : (Observation.entry ⟨m.pc, i, m.depth⟩).isStep = true := rfl
    have kept : t.keeps (Observation.entry ⟨m.pc, i, m.depth⟩).level = true := debug
    -- the entry about the end of the program is not one about a step
    have other : m.haltEntry.isStep = false := rfl
    by_cases halt : i.opcode? = some .halt <;> simp [running, halt, same, step, kept, other]

end Machine

namespace Runner

variable {σ τ : Type} {r : Runner σ} {m : Machine} {p q : Progress σ} {o : Outcome σ}
  {n fuel : Nat} {watch : σ} {log : Log}

theorem steps_start (r : Runner σ) (m : Machine) (watch : σ) (log : Log) :
    (r.start m watch log).log.steps = log.steps := by
  have other : (r.startEntry m).isStep = false := rfl
  simp [start, Log.steps_write, other]

theorem steps_closed (r : Runner σ) (o : Outcome σ) : (r.closed o).log.steps = o.log.steps := by
  have other : (stopEntry o).isStep = false := by
    unfold stopEntry
    cases o.stop.failure? <;> rfl
  simp [closed, Log.steps_write, other]

theorem Leads.log_steps (debug : r.machineThreshold.keeps .debug = true) (h : r.Leads p n q) :
    q.log.steps = p.log.steps ++ (p.machine.sightings n).map Observation.entry := by
  induction h with
  | refl => simp [Machine.sightings]
  | next before last ih =>
    cases advance_eq_iff.1 last with
    | step running =>
      rw [Machine.sightings_succ, List.map_append, ← List.append_assoc, ← ih, ← before.machine]
      exact Machine.steps_traceStep debug running _

theorem Leads.log_steps_of_stop (debug : r.machineThreshold.keeps .debug = true)
    (leads : r.Leads p n q) (last : r.Attempt q (o.toProgress, some o.stop)) :
    o.log.steps = p.log.steps ++
      (p.machine.sightings (n + o.stop.attempts)).map Observation.entry := by
  have before := leads.log_steps debug
  obtain ⟨e, stop⟩ := o
  cases last with
  | halted | cancelled | spent => exact before
  | fault running =>
    have traced := Machine.steps_traceStep debug running q.log
    rw [before, leads.machine] at traced
    change (q.machine.traceStep r.machineThreshold q.log).steps = _
    simp [leads.machine, traced, Stop.attempts, Machine.sightings_succ]

theorem log_steps_of_run (debug : r.machineThreshold.keeps .debug = true)
    (h : r.run fuel m watch log = some o) :
    o.log.steps = log.steps ++ (m.sightings o.attempts).map Observation.entry := by
  obtain ⟨e, q, rfl, leads, last⟩ := exists_of_run h
  have traced := leads.log_steps_of_stop debug last
  rw [steps_start] at traced
  rw [steps_closed]
  exact traced

/-! ### The number of attempts -/

/-- A run shows one instruction for each step, and one more if an instruction ended it by a
fault. -/
theorem length_sightings_of_run (h : r.run fuel m watch log = some o) :
    (m.sightings o.attempts).length = o.result.steps +
      if o.result.fault.isFault = true ∧ 0 ≤ o.result.pc ∧ o.result.pc < m.instructions.length
      then 1 else 0 := by
  obtain ⟨e, q, rfl, leads, last⟩ := exists_of_run h
  have count : (m.sightings e.steps).length = e.steps := leads.length_sightings
  have machine : q.machine = m.after e.steps := leads.machine
  obtain ⟨p, stop⟩ := e
  cases last with
  | halted | cancelled | spent =>
    have calm : Kind.isFault .ok = false := rfl
    simpa [closed, Outcome.attempts, Stop.attempts, Outcome.result, Stop.faultKind, calm]
      using count
  | @fault f =>
    have instructions : q.machine.instructions = m.instructions :=
      machine ▸ m.instructions_after _
    have inside : 0 ≤ q.machine.pc ∧ q.machine.pc < m.instructions.length ↔
        q.machine.sighting? ≠ none := by
      rw [ne_eq, Machine.sighting?_eq_none_iff, instructions]
      omega
    change (m.sightings (q.steps + 1)).length = q.steps +
      if f.kind.isFault = true ∧ 0 ≤ q.machine.pc ∧ q.machine.pc < m.instructions.length
      then 1 else 0
    rw [Machine.sightings_succ, List.length_append, count, ← machine]
    simp only [Fault.kind, f.cause.kind_isFault, true_and, inside]
    cases q.machine.sighting? <;> rfl

/-! ### Calls of observers -/

/-- The observer with the number `i`, which notes each of its calls behind those before. -/
def recorder (f : Observation → σ → σ) (i : Nat) (o : Observation)
    (w : σ × List (Nat × Observation)) : σ × List (Nat × Observation) :=
  (f o w.1, w.2 ++ [(i, o)])

/-- The same runner, with a record of the calls of all observers. -/
def recording (r : Runner σ) : Runner (σ × List (Nat × Observation)) where
  config := r.config
  observers := r.observers.zipIdx.map fun f => recorder f.1 f.2
  cancelled w := r.cancelled w.1
  threshold := r.threshold
  machineThreshold := r.machineThreshold

/-- One call to each of `k` observers, in their order, for everything that is seen. -/
def callsTo (k : Nat) (seen : List Observation) : List (Nat × Observation) :=
  seen.flatMap fun o => (List.range k).map fun i => (i, o)

theorem foldl_recorder (fs : List (Observation → σ → σ)) (i : Nat) (o : Observation)
    (w : σ × List (Nat × Observation)) :
    ((fs.zipIdx i).map fun f => recorder f.1 f.2).foldl (fun w f => f o w) w =
      (fs.foldl (fun w f => f o w) w.1, w.2 ++ (List.range' i fs.length).map (·, o)) := by
  induction fs generalizing i w with
  | nil => simp
  | cons f fs ih => simp [List.zipIdx_cons, ih, List.range'_succ, recorder]

theorem tell_recording (r : Runner σ) (w : σ × List (Nat × Observation)) (o : Observation) :
    r.recording.tell w o = (r.tell w.1 o, w.2 ++ callsTo r.observers.length [o]) := by
  rw [tell, recording, foldl_recorder]
  simp [tell, callsTo, List.range_eq_range']

theorem foldl_tell_recording (r : Runner σ) (seen : List Observation)
    (w : σ × List (Nat × Observation)) :
    seen.foldl r.recording.tell w =
      (seen.foldl r.tell w.1, w.2 ++ callsTo r.observers.length seen) := by
  induction seen generalizing w with
  | nil => simp [callsTo]
  | cons o seen ih => simp [ih, tell_recording, callsTo]

/-- Each observer is told about everything that is seen. -/
theorem filter_callsTo {i k : Nat} (lt : i < k) (seen : List Observation) :
    ((callsTo k seen).filter (·.1 = i)).map (·.2) = seen := by
  have once : (List.range k).filter (· = i) = [i] := by
    rw [List.filter_eq, List.count_range, if_pos lt]
    rfl
  induction seen with
  | nil => rfl
  | cons o seen ih =>
    rw [callsTo] at ih
    simp [callsTo, List.filter_map, Function.comp_def, once, ih]

/-! ### Runs in lock step -/

/-- Two runs have come equally far, and neither or both of them are cancelled. -/
structure InStep (r : Runner σ) (r' : Runner τ) (p : Progress σ) (p' : Progress τ) : Prop where
  machine : p'.machine = p.machine
  steps : p'.steps = p.steps
  cancelled : r'.cancelled p'.watch = r.cancelled p.watch

variable {r' : Runner τ} {p' : Progress τ}

/-- Runs in step do the same: they stop for the same reason before an attempt, or tell their
observers and go on or fault in the same way. -/
theorem InStep.advance (h : InStep r r' p p') (config : r'.config = r.config) :
    (∃ stop, r.advance p = (p, some stop) ∧ r'.advance p' = (p', some stop)) ∨
      ∃ t s stop, r.advance p = ({ r.told p with machine := t, steps := s }, stop) ∧
        r'.advance p' = ({ r'.told p' with machine := t, steps := s }, stop) := by
  obtain ⟨machine, steps, cancelled⟩ := h
  have allowance : r'.allowance = r.allowance := by rw [Runner.allowance, config, Runner.allowance]
  generalize ha : r.advance p = a
  cases advance_eq_iff.1 ha with
  | halted halted =>
    exact .inl ⟨_, rfl, advance_eq_iff.2 (.halted (machine ▸ halted))⟩
  | cancelled running stopped =>
    exact .inl ⟨_, rfl, advance_eq_iff.2 (.cancelled (machine ▸ running) (cancelled ▸ stopped))⟩
  | spent running live spent =>
    refine .inl ⟨_, rfl, advance_eq_iff.2 (.spent (machine ▸ running) (cancelled ▸ live) ?_)⟩
    rwa [allowance, steps]
  | fault running live few step =>
    refine .inr ⟨p.machine, p.steps, _, rfl, advance_eq_iff.2 ?_⟩
    have few' : p'.steps < r'.allowance := by rwa [allowance, steps]
    have fault := Attempt.fault (machine ▸ running) (cancelled ▸ live) few' (machine ▸ step)
    rwa [← machine, ← steps]
  | @step t running live few step =>
    refine .inr ⟨t, p.steps + 1, _, rfl, advance_eq_iff.2 ?_⟩
    have few' : p'.steps < r'.allowance := by rwa [allowance, steps]
    have step := Attempt.step (machine ▸ running) (cancelled ▸ live) few' (machine ▸ step)
    rwa [← steps]

/-- Runs that stay in step end together: `R` relates them while they go on, and `S` where they end. -/
theorem proceed_in_step {R S : Progress σ → Progress τ → Prop} (config : r'.config = r.config)
    (inStep : ∀ p p', R p p' → InStep r r' p p')
    (kept : ∀ p p' t s, R p p' →
      r.advance p = ({ r.told p with machine := t, steps := s }, none) →
      r'.advance p' = ({ r'.told p' with machine := t, steps := s }, none) →
      R { r.told p with machine := t, steps := s } { r'.told p' with machine := t, steps := s })
    (ended : ∀ p p', R p p' → S p p')
    (faulted : ∀ p p' t s, R p p' →
      S { r.told p with machine := t, steps := s } { r'.told p' with machine := t, steps := s })
    (n : Nat) (h : R p p') :
    Option.Rel (fun o o' => S o.toProgress o'.toProgress ∧ o'.stop = o.stop)
      (r.proceed n p) (r'.proceed n p') := by
  induction n generalizing p p' with
  | zero => exact .none
  | succ n ih =>
    unfold proceed
    obtain ⟨stop, ha, ha'⟩ | ⟨t, s, stop, ha, ha'⟩ := (inStep p p' h).advance config
    · rw [ha, ha']
      exact .some ⟨ended p p' h, rfl⟩
    · rw [ha, ha']
      cases stop with
      | none => exact ih (kept p p' t s h ha ha')
      | some stop => exact .some ⟨faulted p p' t s h, rfl⟩

/-- Whether the run from `p` on is cancelled depends on the number of its steps in this way, and so on
nothing that its observers do. -/
def Passive (r : Runner σ) (p : Progress σ) (done : Nat → Bool) : Prop :=
  ∀ n q, r.Leads p n q → r.cancelled q.watch = done n

theorem Passive.next {u : Progress σ} {done : Nat → Bool} (passive : r.Passive p done)
    (h : r.advance p = (u, none)) : r.Passive u fun n => done (n + 1) :=
  fun n q leads => passive (n + 1) q (leads.cons h)

/-- Two runs have come equally far, and what cancels them from now on is the same. -/
structure Abreast (r : Runner σ) (r' : Runner τ) (p : Progress σ) (p' : Progress τ) : Prop where
  machine : p'.machine = p.machine
  steps : p'.steps = p.steps
  passive : ∃ done, r.Passive p done ∧ r'.Passive p' done

theorem Abreast.inStep (h : Abreast r r' p p') : InStep r r' p p' := by
  obtain ⟨machine, steps, done, passive, passive'⟩ := h
  exact ⟨machine, steps, (passive' 0 p' .refl).trans (passive 0 p .refl).symm⟩

/-- What is watched and logged makes no difference if no observer cancels the run. -/
theorem Passive.run_eq {watch' : τ} {log' : Log} {done : Nat → Bool}
    (passive : r.Passive (r.start m watch log) done)
    (passive' : r'.Passive (r'.start m watch' log') done) (config : r'.config = r.config)
    (fuel : Nat) :
    (r'.run fuel m watch' log').map (fun o => (o.machine, o.result)) =
      (r.run fuel m watch log).map fun o => (o.machine, o.result) := by
  have start : Abreast r r' (r.start m watch log) (r'.start m watch' log') :=
    ⟨rfl, rfl, done, passive, passive'⟩
  have kept (p : Progress σ) (p' : Progress τ) (t : Machine) (s : Nat) (h : Abreast r r' p p')
      (ha : r.advance p = ({ r.told p with machine := t, steps := s }, none))
      (ha' : r'.advance p' = ({ r'.told p' with machine := t, steps := s }, none)) :
      Abreast r r' { r.told p with machine := t, steps := s }
        { r'.told p' with machine := t, steps := s } := by
    obtain ⟨done, passive, passive'⟩ := h.passive
    exact ⟨rfl, rfl, _, passive.next ha, passive'.next ha'⟩
  have together := proceed_in_step (S := fun p p' => p'.machine = p.machine ∧ p'.steps = p.steps)
    config (fun _ _ h => h.inStep) kept (fun _ _ h => ⟨h.machine, h.steps⟩)
    (fun _ _ _ _ _ => ⟨rfl, rfl⟩) (r.attempts fuel) start
  have attempts : r'.attempts fuel = r.attempts fuel := by
    rw [Runner.attempts, config, Runner.attempts]
  rw [Runner.run_eq, Runner.run_eq, attempts]
  generalize r.proceed (r.attempts fuel) _ = x, r'.proceed (r.attempts fuel) _ = y at together
  cases together with
  | none => rfl
  | some h =>
    obtain ⟨⟨machine, steps⟩, stop⟩ := h
    simp [closed, Outcome.result, machine, steps, stop]

/-! ### The record of a run -/

/-- The second run is the first with a record of calls. -/
structure Recorded (p : Progress σ) (p' : Progress (σ × List (Nat × Observation))) : Prop where
  machine : p'.machine = p.machine
  steps : p'.steps = p.steps
  watch : p'.watch.1 = p.watch
  log : p'.log = p.log

theorem Recorded.told {p' : Progress (σ × List (Nat × Observation))} (h : Recorded p p')
    (t : Machine) (s : Nat) : Recorded { r.told p with machine := t, steps := s }
      { r.recording.told p' with machine := t, steps := s } := by
  obtain ⟨machine, -, watch, log⟩ := h
  refine ⟨rfl, rfl, ?_, ?_⟩
  · change (r.recording.observe p'.machine p'.watch).1 = r.observe p.machine p.watch
    rw [observe_eq, observe_eq, foldl_tell_recording, machine, watch]
  · change p'.machine.traceStep _ p'.log = p.machine.traceStep _ p.log
    rw [machine, log]
    rfl

theorem run_recorded (r : Runner σ) (fuel : Nat) (m : Machine) (watch : σ) (log : Log) :
    Option.Rel (fun o o' => Recorded o.toProgress o'.toProgress ∧ o'.stop = o.stop)
      (r.run fuel m watch log) (r.recording.run fuel m (watch, []) log) := by
  have start : Recorded (r.start m watch log) (r.recording.start m (watch, []) log) :=
    ⟨rfl, rfl, rfl, rfl⟩
  have inStep (p : Progress σ) (p' : Progress (σ × List (Nat × Observation)))
      (h : Recorded p p') : InStep r r.recording p p' :=
    ⟨h.machine, h.steps, congrArg r.cancelled h.watch⟩
  have together := proceed_in_step (R := Recorded) rfl inStep (fun _ _ t s h _ _ => h.told t s)
    (fun _ _ h => h) (fun _ _ t s h => h.told t s) (r.attempts fuel) start
  rw [run_eq, run_eq]
  change Option.Rel _ _ ((r.recording.proceed (r.attempts fuel) _).map r.recording.closed)
  generalize r.proceed (r.attempts fuel) _ = x, r.recording.proceed (r.attempts fuel) _ = y
    at together
  cases together with
  | none => exact .none
  | @some o o' h =>
    obtain ⟨⟨machine, steps, watch, log⟩, stop⟩ := h
    have entry : stopEntry o' = stopEntry o := by simp only [stopEntry, machine, steps, stop]
    refine .some ⟨⟨machine, steps, watch, ?_⟩, stop⟩
    change o'.log.write r.threshold [stopEntry o'] = o.log.write r.threshold [stopEntry o]
    rw [entry, log]

/-- The same outcome with another state of the watch. -/
def withWatch (o : Outcome σ) (watch : τ) : Outcome τ :=
  { machine := o.machine, steps := o.steps, watch, log := o.log, stop := o.stop }

/-- Keeping a record changes nothing else. -/
theorem run_recording (r : Runner σ) (fuel : Nat) (m : Machine) (watch : σ) (log : Log) :
    r.recording.run fuel m (watch, []) log = (r.run fuel m watch log).map fun o =>
      withWatch o (o.watch, callsTo r.observers.length (m.sightings o.attempts)) := by
  have together := r.run_recorded fuel m watch log
  generalize hx : r.run fuel m watch log = x, hy : r.recording.run fuel m (watch, []) log = y
    at together
  cases together with
  | none => rfl
  | @some o o' h =>
    obtain ⟨⟨machine, steps, watch, log⟩, stop⟩ := h
    have attempts : o'.attempts = o.attempts := by
      rw [Outcome.attempts, steps, stop, Outcome.attempts]
    have calls := congrArg Prod.snd (watch_of_run hy)
    rw [foldl_tell_recording, List.nil_append, attempts] at calls
    have watched : o'.watch = (o.watch, callsTo r.observers.length (m.sightings o.attempts)) :=
      Prod.ext watch calls
    rw [Option.map_some, withWatch, ← machine, ← steps, ← log, ← stop, ← watched]

/-- While a run goes on and when it has ended, its observers have been called for the instructions
that were attempted, one observer after the other, and the machine has logged the same instructions:
one for each step, and one more if an instruction ended the run by a fault. What is watched and
logged has no influence on the run if no observer cancels it. -/
theorem observers_follow_run (r : Runner σ) (debug : r.machineThreshold.keeps .debug = true)
    (m : Machine) (watch : σ) (log : Log) :
    (∀ n q, r.recording.Leads (r.recording.start m (watch, []) log) n q →
      q.watch.2 = callsTo r.observers.length (m.sightings n) ∧ (m.sightings n).length = n ∧
      q.log.steps = log.steps ++ (m.sightings n).map Observation.entry) ∧
    (∀ fuel o, r.run fuel m watch log = some o → ∃ calls,
      r.recording.run fuel m (watch, []) log = some (withWatch o (o.watch, calls)) ∧
      calls = callsTo r.observers.length (m.sightings o.attempts) ∧
      (∀ i < r.observers.length, (calls.filter (·.1 = i)).map (·.2) = m.sightings o.attempts ∧
        (calls.filter (·.1 = i)).length = o.result.steps +
          if o.result.fault.isFault = true ∧ 0 ≤ o.result.pc ∧ o.result.pc < m.instructions.length
          then 1 else 0) ∧
      o.log.steps = log.steps ++ (m.sightings o.attempts).map Observation.entry) ∧
    ∀ (τ : Type) (r' : Runner τ) watch' log' done, r'.config = r.config →
      r.Passive (r.start m watch log) done → r'.Passive (r'.start m watch' log') done →
      ∀ fuel, (r'.run fuel m watch' log').map (fun o => (o.machine, o.result)) =
        (r.run fuel m watch log).map fun o => (o.machine, o.result) := by
  refine ⟨?_, ?_, ?_⟩
  · intro n q leads
    have calls := congrArg Prod.snd leads.watch_eq
    rw [foldl_tell_recording] at calls
    have entries := Leads.log_steps (r := r.recording) debug leads
    rw [steps_start] at entries
    exact ⟨calls, leads.length_sightings, entries⟩
  · intro fuel o run
    have record := r.run_recording fuel m watch log
    rw [run] at record
    refine ⟨_, record, rfl, fun i lt => ?_, log_steps_of_run debug run⟩
    have told := filter_callsTo lt (m.sightings o.attempts)
    have count := congrArg List.length told
    rw [List.length_map, length_sightings_of_run run] at count
    exact ⟨told, count⟩
  · intro τ r' watch' log' done config passive passive' fuel
    exact passive.run_eq passive' config fuel

/-- Two observers see the push that succeeds and the division that does not. Without them and without
a log the result is the same. -/
theorem observers_follow_division :
    let r : Runner Unit :=
      { config := {}, observers := [fun _ w => w, fun _ w => w], machineThreshold := some .debug }
    let alone : Runner Unit := { config := {} }
    let m : Machine := { program := some [.push 7, .divide] }
    let push : Observation := ⟨0, .push 7, 0⟩
    let divide : Observation := ⟨1, .divide, 1⟩
    r.machineThreshold.keeps .debug = true ∧
      ∃ o, r.run 2 m () #[] = some o ∧ o.result.steps = 1 ∧
        r.recording.run 2 m ((), []) #[] =
          some (withWatch o ((), [(0, push), (1, push), (0, divide), (1, divide)])) ∧
        o.log.steps = [push.entry, divide.entry] ∧
        (alone.run 2 m () #[]).map (fun o => (o.machine, o.result)) =
          some (o.machine, o.result) := by
  intro r alone m push divide
  have debug : r.machineThreshold.keeps .debug = true := rfl
  obtain ⟨-, ended, same⟩ := observers_follow_run r debug m () #[]
  obtain ⟨calls, record, rfl, -, entries⟩ := ended 2 _ rfl
  have unobserved := same Unit alone () #[] (fun _ => false) rfl (fun _ _ _ => rfl)
    (fun _ _ _ => rfl) 2
  exact ⟨debug, _, rfl, rfl, record, entries, unobserved⟩

end Runner

end StackMachine
