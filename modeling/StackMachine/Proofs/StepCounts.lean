import Mathlib.Tactic.IntervalCases
import StackMachine.Proofs.AssemblyRoundTrip
import StackMachine.Proofs.DebuggerSessions

/-!
# Three ways to take a number of steps

In the debugger `n` steps are taken by pressing the key for one step `n` times, by typing the
number, or by a run under a limit of `n`. The three count steps and keep faults in places of their
own, but each of them goes where `Machine.Runs` goes under the limit `n`, which `Debugger.Goes`
says, and that leaves no choice.

A number is typed into an empty text field, because the field is emptied whenever typing ends.
-/

namespace StackMachine

def Stop.fault? : Stop → Option Fault
  | faulted f => some f
  | halted | limitReached | cancelled => none

namespace Debugger

variable {d d' e : Debugger} {k : Key} {n fuel : Nat}

/-! ### Where steps lead -/

/-- `d'` is where `d` has gone after `n` steps, or after fewer of them if the machine has halted or
faulted before. -/
def Goes (d : Debugger) (n : Nat) (d' : Debugger) : Prop :=
  ∃ s stop, d.machine.Runs n s d'.machine stop ∧ d'.steps = d.steps + s ∧ d'.fault = stop.fault?

/-- A fault is that of the next step. -/
def Sound (d : Debugger) : Prop := ∀ f, d.fault = some f → d.machine.step = .error f

/-- The two debuggers show the same state of the program. -/
structure Agrees (d e : Debugger) : Prop where
  machine : d.machine = e.machine
  steps : d.steps = e.steps
  fault : d.fault = e.fault

theorem Goes.agrees (h : d.Goes n d') (h' : d.Goes n e) : d'.Agrees e := by
  obtain ⟨s, stop, runs, steps, fault⟩ := h
  obtain ⟨s', stop', runs', steps', fault'⟩ := h'
  obtain ⟨rfl, machine, rfl⟩ := runs'.unique runs
  exact ⟨machine, steps.trans steps'.symm, fault.trans fault'.symm⟩

theorem Goes.sound (h : d.Goes n d') : d'.Sound := by
  obtain ⟨s, stop, runs, -, fault⟩ := h
  intro f faulted
  cases stop with
  | faulted g =>
    obtain rfl : g = f := by simpa [Stop.fault?] using fault.symm.trans faulted
    exact runs.due.2.2
  | halted | limitReached | cancelled => cases fault.symm.trans faulted

theorem sound_of_canStep (able : d.canStep = true) : d.Sound := by
  intro f faulted
  cases (canStep_iff.1 able).1.symm.trans faulted

theorem Goes.append {a b : Nat} (h : d.Goes a d') (h' : d'.Goes b e) (pos : 0 < b) :
    d.Goes (a + b) e := by
  obtain ⟨s, stop, runs, steps, -⟩ := h
  obtain ⟨s', stop', runs', steps', fault⟩ := h'
  refine ⟨s + s', stop', ?_, by omega, fault⟩
  rw [Nat.cast_add]
  exact runs.append runs' (Nat.cast_pos.2 pos)

/-! ### Single steps -/

theorem goes_advance (n : Nat) (unfaulted : d.fault = none) : d.Goes n (advance n d) := by
  fun_induction advance n d with
  | case1 d =>
    obtain ⟨s, t, stop, runs⟩ := d.machine.exists_runs 0
    obtain rfl : s = 0 := by simpa using runs.within
    cases runs.advances
    refine ⟨0, stop, runs, rfl, ?_⟩
    cases stop with
    | faulted f => simpa using runs.due.2.1
    | halted | limitReached | cancelled => exact unfaulted
  | case2 n d halted => exact ⟨0, .halted, ⟨.refl _, by simp, halted⟩, rfl, unfaulted⟩
  | case3 n d running f step =>
    have running : d.machine.halted = false := by simpa using running
    exact ⟨0, .faulted f, ⟨.refl _, by simp, running, by simp, step⟩, rfl, rfl⟩
  | case4 n d running machine step ih =>
    obtain ⟨s, stop, runs, steps, fault⟩ := ih unfaulted
    have first : d.machine.Advances 1 machine := .next (by simpa using running) step (.refl _)
    have whole := runs.prepend first
    refine ⟨1 + s, stop, ?_, by rw [steps]; exact Nat.add_assoc .., fault⟩
    rwa [← Nat.cast_add, Nat.add_comm 1 n] at whole

/-- Where no more steps are taken, the machine has ended before the next one. -/
theorem goes_of_not_canStep (sound : d.Sound) (stuck : ¬ d.canStep = true) (pos : 0 < n)
    (status : String) : d.Goes n { d with status } := by
  cases fault : d.fault with
  | some f =>
    have step : d.machine.step = .error f := sound f fault
    have running : d.machine.halted = false := by
      cases halted : d.machine.halted with
      | false => rfl
      | true => simp [Machine.step, halted] at step
    exact ⟨0, .faulted f, ⟨.refl _, by simp, running, Nat.cast_pos.2 pos, step⟩, rfl, rfl⟩
  | none =>
    have halted : d.machine.halted = true := by simpa [canStep, fault] using stuck
    exact ⟨0, .halted, ⟨.refl _, by simp, halted⟩, rfl, rfl⟩

theorem goes_stepMany (sound : d.Sound) (pos : 0 < n) : d.Goes n (d.stepMany n) := by
  unfold stepMany
  split
  next able => exact goes_advance n (canStep_iff.1 able).1
  next stuck => exact goes_of_not_canStep sound stuck pos stopped

/-! ### Keys in a row -/

/-- Whether a key ends the debugger. -/
def isLast (d : Debugger) (k : Key) : Bool := d.quits k || (d.breakdown? k).isSome

/-- What keys do one after the other, if none of them ends the debugger. -/
def pressAll (fuel : Nat) (d : Debugger) : List Key → Option Debugger
  | [] => some d
  | k :: ks => if d.isLast k then none else (d.press fuel k).bind fun d => d.pressAll fuel ks

theorem pressAll_cons (going : d.isLast k = false) (pressed : d.press fuel k = some d')
    (ks : List Key) : d.pressAll fuel (k :: ks) = d'.pressAll fuel ks := by
  simp [pressAll, going, pressed]

theorem pressAll_append (ks ls : List Key) :
    d.pressAll fuel (ks ++ ls) = (d.pressAll fuel ks).bind fun d => d.pressAll fuel ls := by
  induction ks generalizing d with
  | nil => rfl
  | cons k ks ih =>
    simp only [List.cons_append, pressAll]
    split
    · rfl
    · simp only [Option.bind_assoc, ih]

def stepKey : Key := .typed "s" false

theorem press_stepKey (fuel : Nat) (closed : d.entering = false) :
    d.isLast stepKey = false ∧ d.press fuel stepKey = some (d.stepMany 1) := by
  constructor
  · simp [isLast, quits, breakdown?, closed, stepKey, Key.typed, Key.modified]
  · simp [press, closed, stepKey, Key.typed, Key.modified]

/-- As many steps as the key is pressed. -/
theorem exists_pressAll_stepKey (fuel n : Nat) (sound : d.Sound) (closed : d.entering = false) :
    ∃ d', d.pressAll fuel (List.replicate (n + 1) stepKey) = some d' ∧ d.Goes (n + 1) d' := by
  induction n generalizing d with
  | zero =>
    obtain ⟨going, pressed⟩ := press_stepKey fuel closed
    exact ⟨_, pressAll_cons going pressed [], goes_stepMany sound Nat.one_pos⟩
  | succ n ih =>
    obtain ⟨going, pressed⟩ := press_stepKey fuel closed
    have first : d.Goes 1 (d.stepMany 1) := goes_stepMany sound Nat.one_pos
    obtain ⟨d', all, rest⟩ := ih first.sound (by simpa using closed)
    refine ⟨d', ?_, ?_⟩
    · rw [List.replicate_succ, pressAll_cons going pressed, all]
    · rw [Nat.add_comm (n + 1)]
      exact first.append rest (Nat.succ_pos n)

/-! ### A number that is typed -/

def Key.character (c : Char) : Key := .typed (String.singleton c) false

/-- The keys that take `n` steps by their number. -/
def countKeys (n : Nat) : List Key :=
  .typed "n" false :: ((Nat.toDigits 10 n).map .character ++ [.special "enter" false])

@[simp] theorem Field.before_reveal (f : Field) : f.reveal.before = f.before := by
  unfold Field.reveal
  split_ifs <;> rfl

@[simp] theorem Field.after_reveal (f : Field) : f.reveal.after = f.after := by
  unfold Field.reveal
  split_ifs <;> rfl

/-- A digit is put at the cursor if there is room for it. -/
theorem Field.press_digit (f : Field) {c : Char} (digit : c.isDigit = true)
    (room : f.value.length < limit) :
    (f.press (.character c)).before = c :: f.before ∧ (f.press (.character c)).after = f.after := by
  obtain ⟨n, small, rfl⟩ := Numeral.exists_digitChar digit
  have inserted : f.press (.character n.digitChar) = f.insert [n.digitChar] := by
    interval_cases n <;> rfl
  have kept : sanitize [n.digitChar] = [n.digitChar] := by
    interval_cases n <;> rfl
  have one : limit - f.value.length = limit - f.value.length - 1 + 1 := by omega
  rw [inserted, insert, kept, one]
  simp

theorem isLast_of_typing (typing : d.entering = true) (h : k.name ≠ "alt+delete")
    (h' : k.name ≠ "alt+d") : d.isLast k = false := by
  simp [isLast, quits, breakdown?, Field.overruns, typing, h, h']

/-- A digit is neither a command nor the end of the number. -/
theorem press_digit (fuel : Nat) (typing : d.entering = true) {c : Char}
    (digit : c.isDigit = true) :
    d.isLast (.character c) = false ∧
      d.press fuel (.character c) = some { d with field := d.field.press (.character c) } := by
  obtain ⟨n, small, rfl⟩ := Numeral.exists_digitChar digit
  rw [press, if_pos typing]
  constructor
  · apply isLast_of_typing typing <;> interval_cases n <;> decide
  · interval_cases n <;> rfl

/-- Digits that fit into the text field are added to its end. -/
theorem exists_pressAll_digits (fuel : Nat) (typing : d.entering = true)
    (atEnd : d.field.after = []) (cs : List Char) (digits : ∀ c ∈ cs, c.isDigit = true)
    (room : d.field.value.length + cs.length ≤ Field.limit) :
    ∃ f : Field, f.value = d.field.value ++ cs ∧
      d.pressAll fuel (cs.map .character) = some { d with field := f } := by
  induction cs generalizing d with
  | nil => exact ⟨d.field, by simp, rfl⟩
  | cons c cs ih =>
    have digit : c.isDigit = true := digits c (by simp)
    rw [List.length_cons] at room
    obtain ⟨going, pressed⟩ := press_digit fuel typing digit
    obtain ⟨before, after⟩ := d.field.press_digit digit (by omega)
    have longer : (d.field.press (.character c)).value = d.field.value ++ [c] := by
      simp [Field.value, before, after, atEnd]
    obtain ⟨f, value, all⟩ :=
      ih (d := { d with field := d.field.press (.character c) }) typing (after.trans atEnd)
        (fun b hb => digits b (by simp [hb])) (by simp [longer]; omega)
    refine ⟨f, by simp [value, longer], ?_⟩
    rw [List.map_cons, pressAll_cons going pressed, all]

/-- Entering a number that can be read takes as many steps. -/
theorem enter_decimal (value : d.field.value = Nat.toDigits 10 n) (pos : 0 < n)
    (small : n < 2 ^ 63) : d.enter = { d with entering := false, field := {} }.stepMany n := by
  have decimal : Nat.toDigits 10 n = Numeral.decimal n := by simp [Numeral.decimal]
  have solid : (Text.ofChars d.field.value).trim = Text.ofChars d.field.value := by
    obtain ⟨-, solid⟩ := Assembly.solid_decimal n
    rw [value, decimal]
    apply Text.trim_of_ends
    · intro l hl
      exact solid l (List.mem_of_mem_head? hl)
    · intro l hl
      exact solid l (List.mem_of_getLast? hl)
  have read : Numeral.read 64 (Text.ofChars d.field.value) = .ok (n : Int) := by
    rw [value, decimal]
    exact Numeral.read_decimal (by decide) (by omega) (by omega)
  simp [enter, solid, read, pos]

/-- As many steps as the number says, if it has no more digits than the text field takes. -/
theorem exists_pressAll_countKeys (fuel : Nat) (able : d.canStep = true)
    (closed : d.entering = false) (empty : d.field = {}) (pos : 1 ≤ n) (small : n ≤ 999999999) :
    ∃ d', d.pressAll fuel (countKeys n) = some d' ∧ d.Goes n d' := by
  have short : (Nat.toDigits 10 n).length ≤ Field.limit :=
    (Nat.length_toDigits_le_iff (by decide) (by decide)).2 (Nat.lt_succ_of_le small)
  have digits : ∀ c ∈ Nat.toDigits 10 n, c.isDigit = true := by
    intro c hc
    exact Nat.isDigit_of_mem_toDigits (by decide) (by decide) hc
  let typing : Debugger := { d with entering := true }
  have began : d.isLast (.typed "n" false) = false ∧
      d.press fuel (.typed "n" false) = some typing := by
    constructor
    · simp [isLast, quits, breakdown?, closed, Key.typed, Key.modified]
    · simp [press, closed, able, Key.typed, Key.modified, typing]
  obtain ⟨f, value, typed⟩ := exists_pressAll_digits (d := typing) fuel rfl
    (by simp [typing, empty]) _ digits (by simpa [typing, empty, Field.value] using short)
  let full : Debugger := { typing with field := f }
  have ended : full.pressAll fuel [.special "enter" false] = some full.enter := by
    refine pressAll_cons ?_ rfl []
    apply isLast_of_typing rfl <;> decide
  have entered : full.enter = { full with entering := false, field := {} }.stepMany n := by
    apply enter_decimal _ pos (by omega)
    simpa [full, typing, empty, Field.value] using value
  refine ⟨full.enter, ?_, ?_⟩
  · rw [countKeys, pressAll_cons began.1 began.2, pressAll_append, typed, Option.bind_some, ended]
  · have goes : Goes { full with entering := false, field := {} } n full.enter :=
      entered ▸ goes_stepMany (sound_of_canStep able) pos
    exact goes

/-! ### A run -/

/-- The same debugger under another limit. -/
def limited (d : Debugger) (limit : Int) : Debugger :=
  { d with config := { d.config with stepLimit := limit } }

theorem goes_afterRun {o : Outcome Unit} (unfaulted : d.fault = none)
    (runs : d.machine.Runs n o.steps o.machine o.stop) : d.Goes n (d.afterRun o) := by
  unfold afterRun
  split
  next f stop => exact ⟨o.steps, o.stop, runs, rfl, by simp [stop, Stop.fault?]⟩
  next stop other =>
    refine ⟨o.steps, o.stop, runs, rfl, ?_⟩
    cases h : o.stop with
    | faulted f => exact absurd h (other f)
    | halted | limitReached | cancelled => exact unfaulted

theorem exists_pressAll_run (fuel : Nat) (able : d.canStep = true) (closed : d.entering = false)
    (pos : 1 ≤ n) :
    ∃ d', (d.limited n).pressAll fuel [.typed "r" false] = some d' ∧ d.Goes n d' := by
  have steady : ({ config := d.config } : Runner Unit).Steady := fun _ => rfl
  obtain ⟨o, run, runs⟩ := steady.exists_run (Int.natCast_pos.2 pos) d.machine fuel () #[]
  have config : (d.limited n).runConfig = (d.limited n).config := by
    apply if_neg
    simpa [limited] using Nat.ne_of_gt pos
  have able' : (d.limited n).canStep = true := able
  have ended : (d.limited n).run fuel = some ((d.limited n).afterRun o) := by
    rw [Debugger.run, if_pos able', config]
    exact congrArg (Option.map (d.limited n).afterRun) run
  refine ⟨(d.limited n).afterRun o, pressAll_cons ?_ ?_ [], ?_⟩
  · simp [isLast, quits, breakdown?, limited, closed, Key.typed, Key.modified]
  · rw [← ended]
    simp [press, limited, closed, Key.typed, Key.modified]
  · exact goes_afterRun (d := d.limited n) (canStep_iff.1 able).1 runs

/-! ### Sessions -/

/-- What keys make of a debugger in which no number is being typed, wherever its machine stands. -/
inductive Session : Debugger → Prop where
  | start {d : Debugger} : d.entering = false → d.field = {} → Session d
  | press {d d' : Debugger} (fuel : Nat) (k : Key) : Session d → d.press fuel k = some d' →
      Session d'

/-- There is text in the field only while a number is being typed. -/
def Tidy (d : Debugger) : Prop := d.entering = false → d.field = {}

@[simp] theorem field_advance (n : Nat) (d : Debugger) : (advance n d).field = d.field := by
  fun_induction advance n d with
  | case1 | case2 | case3 => rfl
  | case4 _ _ _ _ _ ih => exact ih

@[simp] theorem field_stepMany (n : Nat) (d : Debugger) : (d.stepMany n).field = d.field := by
  unfold stepMany
  split
  · exact field_advance n d
  · rfl

theorem Tidy.stepMany (h : d.Tidy) (n : Nat) : (d.stepMany n).Tidy := by
  simpa [Tidy] using h

theorem Tidy.run (h : d.Tidy) (ran : d.run fuel = some d') : d'.Tidy := by
  unfold Debugger.run at ran
  split at ran
  · obtain ⟨o, -, rfl⟩ := Option.map_eq_some_iff.1 ran
    unfold afterRun
    split <;> exact h
  · cases ran
    exact h

theorem tidy_pressEntering (typing : d.entering = true) (k : Key) : (d.pressEntering k).Tidy := by
  unfold pressEntering
  split
  · simp only [enter]
    split
    · split
      · exact Tidy.stepMany (fun _ => rfl) _
      · exact fun _ => rfl
    · exact fun _ => rfl
  · exact fun _ => rfl
  · intro closed
    cases typing.symm.trans closed

theorem Tidy.press (h : d.Tidy) (pressed : d.press fuel k = some d') : d'.Tidy := by
  unfold Debugger.press at pressed
  split at pressed
  next typing =>
    cases pressed
    exact tidy_pressEntering typing k
  next =>
    split at pressed
    · cases pressed
      exact h.stepMany 1
    · cases pressed
      exact h.stepMany 1
    · exact h.run pressed
    · cases pressed
      split
      · exact nofun
      · exact h
    · cases pressed
      exact h
    · cases pressed
      exact h

theorem Session.tidy (h : Session d) : d.Tidy := by
  induction h with
  | start _ empty => exact fun _ => empty
  | press _ _ _ pressed ih => exact ih.press pressed

/-- From wherever a debugger can step, `n` single steps, the number `n` and a run under the limit
`n` lead to the same state: that after `n` steps, or after fewer if the machine halts or faults. -/
theorem ways_to_step_agree (d : Debugger) (session : Session d) (able : d.canStep = true)
    (closed : d.entering = false) (n : Nat) (pos : 1 ≤ n) (small : n ≤ 999999999) (fuel : Nat) :
    ∃ a b c, d.pressAll fuel (List.replicate n stepKey) = some a ∧
      d.pressAll fuel (countKeys n) = some b ∧
      (d.limited n).pressAll fuel [.typed "r" false] = some c ∧
      a.Agrees b ∧ b.Agrees c ∧ d.Goes n a := by
  obtain ⟨k, rfl⟩ : ∃ k, n = k + 1 := ⟨n - 1, by omega⟩
  obtain ⟨a, single, first⟩ := exists_pressAll_stepKey fuel k (sound_of_canStep able) closed
  obtain ⟨b, typed, second⟩ :=
    exists_pressAll_countKeys fuel able closed (session.tidy closed) pos small
  obtain ⟨c, ran, third⟩ := exists_pressAll_run fuel able closed pos
  exact ⟨a, b, c, single, typed, ran, first.agrees second, second.agrees third, first⟩

/-- After a first step, the second of twelve more faults. -/
theorem ways_to_step_agree_at_fault :
    let program : Option Program := some [.push 1, .push 2, .jump 7]
    let d : Debugger := { start "jump" {} program with
      machine := { program, stack := [1], pc := 1 }, steps := 1 }
    Session d ∧ d.canStep = true ∧ d.entering = false ∧
      ∃ a b c, d.pressAll 0 (List.replicate 12 stepKey) = some a ∧
        d.pressAll 0 (countKeys 12) = some b ∧
        (d.limited (12 : Nat)).pressAll 0 [.typed "r" false] = some c ∧
        a.Agrees b ∧ b.Agrees c ∧ d.Goes 12 a := by
  intro program d
  have session : Session d := .press 0 stepKey (.start (d := start "jump" {} program) rfl rfl) rfl
  exact ⟨session, rfl, rfl,
    ways_to_step_agree d session rfl rfl 12 (by decide) (by decide) 0⟩

end Debugger

end StackMachine
