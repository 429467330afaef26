import StackMachine.Debugger
import StackMachine.Proofs.StepLimits

/-!
# Sessions of the debugger

However a program is stepped in the debugger, by single steps, by a number of steps or by runs, the
machine is where as many steps lead as the debugger has counted. `Debugger.Effect` says what a key
can do, and everything about sessions follows from it.
-/

namespace StackMachine

namespace Debugger

variable {d d' : Debugger} {k : Key}

theorem canStep_iff : d.canStep = true ↔ d.fault = none ∧ d.machine.halted = false := by
  simp [canStep]

/-! ### What a key can do -/

/-- Nothing has happened to the program. -/
structure Idle (d d' : Debugger) : Prop where
  config : d'.config = d.config
  program : d'.program = d.program
  machine : d'.machine = d.machine
  steps : d'.steps = d.steps
  fault : d'.fault = d.fault

/-- The program has gone on by as many steps as were counted, perhaps until it faulted. -/
structure Proceeds (d d' : Debugger) : Prop where
  config : d'.config = d.config
  program : d'.program = d.program
  advances : ∃ n, d.machine.Advances n d'.machine ∧ d'.steps = d.steps + n
  fault : ∀ f, d'.fault = some f → d'.machine.step = .error f

/-- What a key can do. The number of steps is typed only while there are steps to take, and to start
again is not to type. -/
inductive Effect (d : Debugger) (k : Key) : Debugger → Prop where
  | idle {d' : Debugger} : d.Idle d' → (k.name = "x" → d.entering = true) →
      (d'.entering = true → d.entering = true ∨ d.canStep = true) → Effect d k d'
  | proceed {d' : Debugger} : d.canStep = true → d.Proceeds d' → d'.entering = false →
      Effect d k d'
  | reset : k.name = "x" → d.entering = false → Effect d k d.reset

/-! ### Steps -/

@[simp] theorem entering_advance (n : Nat) (d : Debugger) : (advance n d).entering = d.entering := by
  fun_induction advance n d with
  | case1 => rfl
  | case2 => rfl
  | case3 => rfl
  | case4 _ _ _ _ _ ih => exact ih

theorem proceeds_advance (n : Nat) (unfaulted : d.fault = none) : d.Proceeds (advance n d) := by
  fun_induction advance n d with
  | case1 d => exact ⟨rfl, rfl, ⟨0, .refl _, rfl⟩, by simp [unfaulted]⟩
  | case2 d _ _ => exact ⟨rfl, rfl, ⟨0, .refl _, rfl⟩, by simp [unfaulted]⟩
  | case3 d _ _ f step => exact ⟨rfl, rfl, ⟨0, .refl _, rfl⟩, by simpa using step⟩
  | case4 d n running machine step ih =>
    obtain ⟨config, program, ⟨n, advances, steps⟩, fault⟩ := ih unfaulted
    refine ⟨config, program, ⟨n + 1, .next (by simpa using running) step advances, ?_⟩, fault⟩
    rw [steps, Nat.add_assoc, Nat.add_comm 1]

/-- The program has gone on if it could. -/
def Tries (d d' : Debugger) : Prop := if d.canStep then d.Proceeds d' else d.Idle d'

theorem tries_of_not_canStep (stuck : ¬ d.canStep = true) (status : String) :
    d.Tries { d with status } := by
  rw [Tries, if_neg stuck]
  exact ⟨rfl, rfl, rfl, rfl, rfl⟩

theorem Tries.effect (h : d.Tries d') (other : k.name ≠ "x") (closed : d'.entering = false) :
    d.Effect k d' := by
  unfold Tries at h
  split at h
  next able => exact .proceed able h closed
  next => exact .idle h (absurd · other) (by simp [closed])

theorem tries_stepMany (n : Nat) (d : Debugger) : d.Tries (d.stepMany n) := by
  unfold stepMany
  split
  next able =>
    obtain ⟨config, program, advances, fault⟩ := proceeds_advance n (canStep_iff.1 able).1
    rw [Tries, if_pos able]
    exact ⟨config, program, advances, fault⟩
  next stuck => exact tries_of_not_canStep stuck stopped

@[simp] theorem entering_stepMany (n : Nat) (d : Debugger) :
    (d.stepMany n).entering = d.entering := by
  unfold stepMany
  split
  · exact entering_advance n d
  · rfl

/-! ### Runs -/

@[simp] theorem entering_afterRun (d : Debugger) (o : Outcome Unit) :
    (d.afterRun o).entering = d.entering := by
  unfold afterRun
  split <;> rfl

/-- A run in the debugger has a limit. -/
theorem exists_limit (nonneg : 0 ≤ d.config.stepLimit) :
    ∃ limit, 0 < limit ∧
      ({ config := d.runConfig } : Runner Unit) = Runner.limited { config := d.config } limit := by
  unfold runConfig
  split
  next => exact ⟨runLimit, by decide, rfl⟩
  next some => exact ⟨d.config.stepLimit, by omega, rfl⟩

theorem proceeds_afterRun {limit : ℕ∞} {o : Outcome Unit} (unfaulted : d.fault = none)
    (runs : d.machine.Runs limit o.steps o.machine o.stop) : d.Proceeds (d.afterRun o) := by
  have due := runs.due
  unfold afterRun
  split
  next f stop =>
    rw [stop] at due
    exact ⟨rfl, rfl, ⟨o.steps, runs.advances, rfl⟩, by simpa using due.2.2⟩
  next => exact ⟨rfl, rfl, ⟨o.steps, runs.advances, rfl⟩, by simp [unfaulted]⟩

theorem exists_run_tries (nonneg : 0 ≤ d.config.stepLimit) (fuel : Nat) :
    ∃ d', d.run fuel = some d' ∧ d.Tries d' ∧ d'.entering = d.entering := by
  unfold run
  split
  next able =>
    -- a run under a limit ends, so there is an outcome whatever the bound on attempts
    obtain ⟨limit, pos, runner⟩ := exists_limit nonneg
    have steady : ({ config := d.config } : Runner Unit).Steady := fun _ => rfl
    obtain ⟨o, run, runs⟩ := steady.exists_run pos d.machine fuel () #[]
    refine ⟨d.afterRun o, by simp [runner, run], ?_, entering_afterRun d o⟩
    rw [Tries, if_pos able]
    exact proceeds_afterRun (canStep_iff.1 able).1 runs
  next stuck => exact ⟨_, rfl, tries_of_not_canStep stuck stopped, rfl⟩

/-! ### Keys -/

theorem Idle.refl (d : Debugger) : d.Idle d := ⟨rfl, rfl, rfl, rfl, rfl⟩

/-- What is typed does not matter for what can happen. -/
theorem Tries.of_field {f : Field} {b : Bool} (h : Tries { d with entering := b, field := f } d') :
    d.Tries d' := by
  unfold Tries at h ⊢
  split at h
  next able =>
    rw [if_pos (by exact able)]
    exact ⟨h.config, h.program, h.advances, h.fault⟩
  next stuck =>
    rw [if_neg (by exact stuck)]
    exact ⟨h.config, h.program, h.machine, h.steps, h.fault⟩

theorem enter_effect (other : k.name ≠ "x") : d.Effect k d.enter := by
  have refused (status : String) :
      d.Effect k { d with entering := false, field := {}, status } :=
    .idle ⟨rfl, rfl, rfl, rfl, rfl⟩ (absurd · other) nofun
  simp only [enter]
  split
  next n _ =>
    split
    · exact (tries_stepMany n.toNat _).of_field.effect other (entering_stepMany n.toNat _)
    · exact refused _
  next => exact refused _

theorem pressEntering_effect (entering : d.entering = true) : d.Effect k (d.pressEntering k) := by
  unfold pressEntering
  split
  next name => exact enter_effect (by simp [name])
  next => exact .idle ⟨rfl, rfl, rfl, rfl, rfl⟩ (fun _ => entering) nofun
  next => exact .idle ⟨rfl, rfl, rfl, rfl, rfl⟩ (fun _ => entering) fun _ => .inl entering

/-- Every key has an effect. -/
theorem exists_press (nonneg : 0 ≤ d.config.stepLimit) (fuel : Nat) (k : Key) :
    ∃ d', d.press fuel k = some d' ∧ d.Effect k d' := by
  unfold press
  split
  next entering => exact ⟨_, rfl, pressEntering_effect entering⟩
  next command =>
    have closed : d.entering = false := by simpa using command
    split
    next name => exact ⟨_, rfl, (tries_stepMany 1 d).effect (by simp [name]) (by simpa)⟩
    next name => exact ⟨_, rfl, (tries_stepMany 1 d).effect (by simp [name]) (by simpa)⟩
    next name =>
      obtain ⟨d', run, tries, same⟩ := exists_run_tries nonneg fuel
      exact ⟨d', run, tries.effect (by simp [name]) (same.trans closed)⟩
    next name =>
      refine ⟨_, rfl, .idle ?_ (by simp [name]) ?_⟩
      · split <;> exact ⟨rfl, rfl, rfl, rfl, rfl⟩
      · intro entering
        split at entering
        next able => exact .inr able
        next => exact .inl entering
    next name => exact ⟨_, rfl, .reset name closed⟩
    next other => exact ⟨_, rfl, .idle (.refl d) (absurd · other) .inl⟩

/-! ### Sessions -/

/-- What keys make of a new debugger. Any text may stand in the text field. -/
inductive Reached (name : String) (config : Config) (program : Option Program) :
    Debugger → Prop where
  | start : Reached name config program (start name config program)
  | press {d d' : Debugger} (fuel : Nat) (k : Key) : Reached name config program d →
      d.press fuel k = some d' → Reached name config program d'
  | field {d : Debugger} (f : Field) : Reached name config program d →
      Reached name config program { d with field := f }

/-- The machine is where the counted steps lead, a fault is that of the next step, and a number of
steps is typed only while there are steps to take. -/
structure Faithful (config : Config) (program : Option Program) (d : Debugger) : Prop where
  config_eq : d.config = config
  program_eq : d.program = program
  advances : (config.machine program).Advances d.steps d.machine
  fault : ∀ f, d.fault = some f → d.machine.step = .error f
  entering : d.entering = true → d.canStep = true

variable {name : String} {config : Config} {program : Option Program}

theorem faithful_start : (start name config program).Faithful config program :=
  ⟨rfl, rfl, .refl _, nofun, nofun⟩

theorem Faithful.effect (h : d.Faithful config program) (e : d.Effect k d') :
    d'.Faithful config program := by
  obtain ⟨rfl, rfl, advances, fault, entering⟩ := h
  cases e with
  | idle same _ typed =>
    obtain ⟨config, program, machine, steps, fault'⟩ := same
    have able : d'.canStep = d.canStep := by simp [canStep, machine, fault']
    refine ⟨config, program, by rwa [machine, steps], by rwa [machine, fault'], ?_⟩
    intro typing
    rw [able]
    exact (typed typing).elim entering id
  | proceed _ goes closed =>
    obtain ⟨config, program, ⟨n, further, steps⟩, fault'⟩ := goes
    exact ⟨config, program, steps ▸ advances.trans further, fault', by simp [closed]⟩
  | reset _ closed => exact ⟨rfl, rfl, .refl _, nofun, by simp [reset, closed]⟩

theorem Reached.faithful (nonneg : 0 ≤ config.stepLimit) (h : Reached name config program d) :
    d.Faithful config program := by
  induction h with
  | start => exact faithful_start
  | press fuel k _ pressed ih =>
    obtain ⟨d', pressed', effect⟩ := exists_press (ih.config_eq ▸ nonneg) fuel k
    obtain rfl := Option.some.inj (pressed'.symm.trans pressed)
    exact ih.effect effect
  | field f _ ih => exact ⟨ih.config_eq, ih.program_eq, ih.advances, ih.fault, ih.entering⟩

/-- Where no more steps are taken, the only key that does anything is the one to start again. -/
theorem Faithful.effect_of_stopped (h : d.Faithful config program) (stopped : ¬ d.canStep = true)
    (e : d.Effect k d') : if k.name = "x" then d' = d.reset else d.Idle d' := by
  have closed : ¬ d.entering = true := mt h.entering stopped
  cases e with
  | idle same typing => rwa [if_neg (mt typing closed)]
  | proceed able => exact absurd able stopped
  | reset name => rw [if_pos name]

/-- However keys have stepped a program, its machine is where the counted steps lead, and a fault is
that of the next step. Every key has an effect, but once the program has halted or faulted, only
starting again changes anything. -/
theorem session_follows_steps (nonneg : 0 ≤ config.stepLimit)
    (reached : Reached name config program d) :
    (config.machine program).Advances d.steps d.machine ∧
    (∀ f, d.fault = some f → d.machine.step = .error f) ∧
    (d.entering = true → d.fault = none ∧ d.machine.halted = false) ∧
    ∀ fuel k, ∃ d', d.press fuel k = some d' ∧
      (d.machine.halted = true ∨ d.fault ≠ none →
        if k.name = "x" then
          d'.machine = config.machine program ∧ d'.steps = 0 ∧ d'.fault = none
        else d'.machine = d.machine ∧ d'.steps = d.steps ∧ d'.fault = d.fault) := by
  have h : d.Faithful config program := reached.faithful nonneg
  refine ⟨h.advances, h.fault, fun typing => canStep_iff.1 (h.entering typing), ?_⟩
  intro fuel k
  obtain ⟨d', pressed, effect⟩ := exists_press (h.config_eq ▸ nonneg) fuel k
  refine ⟨d', pressed, fun ended => ?_⟩
  have stopped : ¬ d.canStep = true := by
    rw [canStep_iff]
    grind
  have only := h.effect_of_stopped stopped effect
  split at only
  next name =>
    subst only
    rw [if_pos name, ← h.config_eq, ← h.program_eq]
    exact ⟨rfl, rfl, rfl⟩
  next other =>
    rw [if_neg other]
    exact ⟨only.machine, only.steps, only.fault⟩

/-- A single step succeeds, and the first of five more faults. -/
theorem session_with_fault :
    let config : Config := {}
    let program : Option Program := some [.push 1, .add]
    let fault : Fault := ⟨1, some 2, .missingValues 2 1⟩
    let d : Debugger := { start "sum" config program with
      machine := { program, stack := [1], pc := 1 }, steps := 1, fault := some fault }
    0 ≤ config.stepLimit ∧ Reached "sum" config program d ∧
      (config.machine program).Advances 1 d.machine ∧ d.machine.step = .error fault ∧
      ∃ d', d.press 0 (.typed "x" false) = some d' ∧ d'.machine = config.machine program ∧
        d'.steps = 0 ∧ d'.fault = none := by
  intro config program fault d
  have nonneg : 0 ≤ config.stepLimit := by decide
  let first : Debugger := { d with fault := none }
  let typing : Debugger := { first with entering := true }
  have reached : Reached "sum" config program first := .press 0 (.typed "s" false) .start rfl
  have reached : Reached "sum" config program typing := .press 0 (.typed "n" false) reached rfl
  have reached : Reached "sum" config program d :=
    .press 0 (.special "enter" false) (.field { before := ['5'] } reached) rfl
  obtain ⟨advances, step, -, press⟩ := session_follows_steps nonneg reached
  obtain ⟨d', pressed, effect⟩ := press 0 (.typed "x" false)
  exact ⟨nonneg, reached, advances, step fault rfl, d', pressed, effect (.inr nofun)⟩

end Debugger

end StackMachine
