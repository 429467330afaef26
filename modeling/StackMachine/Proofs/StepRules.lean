import Mathlib.Algebra.Group.Nat.Defs
import StackMachine.Machine.Step
import StackMachine.Proofs.Opcodes

/-!
# Rules of a step

The effect of one step, stated rule by rule on the values as they are listed, bottom first, and on
unbounded integers that are wrapped to words afterwards. A step of a running machine does what some
rule says, and every rule that applies says the same.
-/

namespace StackMachine

/-- The integer that an opcode makes of two values, before it is wrapped to a word. -/
def Opcode.onIntegers? : Opcode → Option (Int → Int → Int)
  | add => some (· + ·)
  | subtract => some (· - ·)
  | multiply => some (· * ·)
  | divide => some Int.tdiv
  | equal => some fun a b => if a = b then 1 else 0
  | _ => none

namespace Machine

open Fault (Cause)

/-! ### The rules -/

/-- The instruction `i` stands at the index of the machine. -/
def Fetches (m : Machine) (i : Instruction) : Prop :=
  ∃ n : Nat, m.pc = n ∧ m.instructions[n]? = some i

/-- A bound is set and leaves no room for another value. -/
def Full (m : Machine) : Prop := 0 < m.limit ∧ m.limit ≤ m.values.length

/-- `t` has these values, bottom first, and this index, and is otherwise as `m` was. -/
structure Reaches (m : Machine) (values : List Int32) (pc : Int) (t : Machine) : Prop where
  values : t.values = values
  pc : t.pc = pc
  halted : t.halted = m.halted
  program : t.program = m.program
  limit : t.limit = m.limit

/-- What a step of a running machine gives: another machine, or the kind of a fault. -/
inductive Rule (m : Machine) : Except Kind Machine → Prop where
  | outside : m.pc < 0 ∨ m.instructions.length ≤ m.pc → Rule m (.error .illegalInstruction)
  | push {v : Int32} {t : Machine} : m.Fetches (.of .push v) → ¬ m.Full →
      m.Reaches (m.values ++ [v]) (m.pc + 1) t → Rule m (.ok t)
  | pushFull {v : Int32} : m.Fetches (.of .push v) → m.Full → Rule m (.error .stackOverflow)
  | duplicate {k v : Int32} {t : Machine} : m.Fetches (.of .duplicate k) →
      0 ≤ k.toInt → k.toInt < m.values.length → ¬ m.Full →
      m.values[(m.values.length - 1 - k.toInt).toNat]? = some v →
      m.Reaches (m.values ++ [v]) (m.pc + 1) t → Rule m (.ok t)
  | duplicateDeep {k : Int32} : m.Fetches (.of .duplicate k) → m.values.length - k.toInt ≤ 0 →
      Rule m (.error .stackUnderflow)
  | duplicateNegative {k : Int32} : m.Fetches (.of .duplicate k) →
      0 < m.values.length - k.toInt → k.toInt < 0 → Rule m (.error .illegalInstruction)
  | duplicateFull {k : Int32} : m.Fetches (.of .duplicate k) →
      0 < m.values.length - k.toInt → 0 ≤ k.toInt → m.Full → Rule m (.error .stackOverflow)
  | combine {op : Opcode} {x a b v : Int32} {f : Int → Int → Int} {below : List Int32}
      {t : Machine} : m.Fetches (.of op x) → op.onIntegers? = some f → m.values = below ++ [a, b] →
      ¬ (op = .divide ∧ b = 0) → v.toInt = (f a.toInt b.toInt).bmod (2 ^ 32) →
      m.Reaches (below ++ [v]) (m.pc + 1) t → Rule m (.ok t)
  | combineShort {op : Opcode} {x : Int32} {f : Int → Int → Int} : m.Fetches (.of op x) →
      op.onIntegers? = some f → m.values.length < 2 → Rule m (.error .stackUnderflow)
  | divideByZero {x a : Int32} {below : List Int32} : m.Fetches (.of .divide x) →
      m.values = below ++ [a, 0] → Rule m (.error .divisionByZero)
  | jump {target : Int32} {t : Machine} : m.Fetches (.of .jump target) → 0 ≤ target.toInt →
      target.toInt < m.instructions.length → m.Reaches m.values target.toInt t → Rule m (.ok t)
  | jumpOutside {target : Int32} : m.Fetches (.of .jump target) →
      target.toInt < 0 ∨ m.instructions.length ≤ target.toInt →
      Rule m (.error .illegalInstruction)
  | branchShort {target : Int32} : m.Fetches (.of .jumpIfTrue target) → m.values = [] →
      Rule m (.error .stackUnderflow)
  -- a branch that is taken drops its condition and may leave the program
  | branchTaken {target : Int32} {below : List Int32} {t : Machine} :
      m.Fetches (.of .jumpIfTrue target) → m.values = below ++ [1] →
      m.Reaches below target.toInt t → Rule m (.ok t)
  | branchPassed {target c : Int32} {below : List Int32} {t : Machine} :
      m.Fetches (.of .jumpIfTrue target) → m.values = below ++ [c] → c ≠ 1 →
      m.Reaches m.values (m.pc + 1) t → Rule m (.ok t)
  | halt {x : Int32} {t : Machine} : m.Fetches (.of .halt x) →
      Reaches { m with halted := true } m.values (m.pc + 1) t → Rule m (.ok t)
  | unknown {i : Instruction} : m.Fetches i → 10 ≤ i.tag → Rule m (.error .illegalInstruction)

/-! ### Every rule is what the step does -/

variable {m t : Machine} {r : Except Kind Machine}

theorem fetches_iff {i : Instruction} : m.Fetches i ↔ m.current? = some i := by
  unfold Fetches current? instructionAt?
  constructor
  · rintro ⟨n, hn, hi⟩
    simp [hn, hi]
  · intro h
    split at h
    · exact ⟨m.pc.toNat, by omega, h⟩
    · cases h

theorem current?_eq_none_iff :
    m.current? = none ↔ m.pc < 0 ∨ m.instructions.length ≤ m.pc := by
  unfold current? instructionAt?
  split
  · rw [List.getElem?_eq_none_iff]
    omega
  · simp only [true_iff]
    omega

theorem step_of_execute {i : Instruction} (running : m.halted = false) (hi : m.Fetches i)
    (h : m.execute i = .ok t) : m.step.mapError Fault.kind = .ok t := by
  simp only [step, running, fetches_iff.1 hi, h]
  rfl

theorem step_of_refusal {i : Instruction} {cause : Cause} (running : m.halted = false)
    (hi : m.Fetches i) (h : m.execute i = .error cause) :
    m.step.mapError Fault.kind = .error cause.kind := by
  simp only [step, running, fetches_iff.1 hi, h]
  rfl

theorem reaches_iff {vs : List Int32} {pc : Int} :
    m.Reaches vs pc t ↔ t = { m with stack := vs.reverse, pc } := by
  constructor
  · rintro ⟨rfl, rfl, hh, hp, hl⟩
    cases t
    simp_all [values]
  · rintro rfl
    exact ⟨List.reverse_reverse vs, rfl, rfl, rfl, rfl⟩

theorem values_eq_append_iff {below top : List Int32} :
    m.values = below ++ top ↔ m.stack = top.reverse ++ below.reverse := by
  rw [values, List.reverse_eq_iff, List.reverse_append]

@[simp] theorem reverse_values : m.values.reverse = m.stack := List.reverse_reverse m.stack

@[simp] theorem length_values : m.values.length = m.depth := List.length_reverse

theorem grow_of_full {v : Int32} (full : m.Full) : m.grow v = .error (.stackFull m.limit) := by
  rw [Full, length_values] at full
  exact if_pos full

theorem grow_of_room {v : Int32} (room : ¬ m.Full) : m.grow v = .ok (m.next (v :: m.stack)) := by
  rw [Full, length_values] at room
  exact if_neg room

theorem copy_of_neg {k : Int32} (neg : k.toInt < 0) : m.copy k = .error (.negativeDepth k) :=
  if_pos (Int32.lt_iff_toInt_lt.2 neg)

theorem copy_of_nonneg {k : Int32} (nonneg : 0 ≤ k.toInt) :
    m.copy k = match m.stack[k.toInt.toNat]? with
      | some v => m.grow v
      | none => .error (.tooDeep k m.depth) := by
  have : ¬ k < 0 := by simpa [Int32.lt_iff_toInt_lt] using nonneg
  exact if_neg this

theorem copy_of_deep {k : Int32} (deep : m.values.length - k.toInt ≤ 0) :
    m.copy k = .error (.tooDeep k m.depth) := by
  rw [length_values, depth] at deep
  have missing : m.stack[k.toInt.toNat]? = none := List.getElem?_eq_none (by omega)
  rw [copy_of_nonneg (by omega), missing]

/-- Counting from the top of the stack is counting back from the last of the values. -/
theorem copy_of_held {k : Int32} (nonneg : 0 ≤ k.toInt) (held : k.toInt < m.values.length) :
    ∃ v, m.values[(m.values.length - 1 - k.toInt).toNat]? = some v ∧ m.copy k = m.grow v := by
  rw [length_values, depth] at *
  have hk : k.toInt.toNat < m.stack.length := by omega
  refine ⟨m.stack[k.toInt.toNat], ?_, ?_⟩
  · rw [values, List.getElem?_reverse (by omega)]
    have back : m.stack.length - 1 - ((m.stack.length : Int) - 1 - k.toInt).toNat =
        k.toInt.toNat := by omega
    rw [back, List.getElem?_eq_getElem hk]
  · rw [copy_of_nonneg nonneg, List.getElem?_eq_getElem hk]

theorem combine_of_short {g : Int32 → Int32 → Except Cause Int32} (short : m.values.length < 2) :
    m.combine g = .error (.missingValues 2 m.depth) := by
  rw [length_values, depth] at short
  unfold combine depth
  match m.stack, short with
  | [], _ => rfl
  | [_], _ => rfl

theorem combine_of_pair {g : Int32 → Int32 → Except Cause Int32} {a b : Int32}
    {below : List Int32} (pair : m.values = below ++ [a, b]) :
    m.combine g = (g a b).map fun v => m.next (v :: below.reverse) := by
  have hs : m.stack = b :: a :: below.reverse := values_eq_append_iff.1 pair
  unfold combine
  rw [hs]
  cases hg : g a b <;> simp [hg, Except.map]

/-- The opcodes that replace two values agree with their exact integers up to wrapping; only a
division can refuse its values. -/
theorem execute_of_onIntegers {op : Opcode} {f : Int → Int → Int}
    (hf : op.onIntegers? = some f) (x : Int32) :
    ∃ g : Int32 → Int32 → Except Cause Int32, m.execute (.of op x) = m.combine g ∧
      (∀ a b, ¬ (op = .divide ∧ b = 0) →
        ∃ v, g a b = .ok v ∧ v.toInt = (f a.toInt b.toInt).bmod (2 ^ 32)) ∧
      (op = .divide → ∀ a, g a 0 = .error (.divisionByZero a)) := by
  cases op <;> simp only [Opcode.onIntegers?, Option.some.injEq, reduceCtorEq] at hf <;> subst hf
  case add =>
    exact ⟨fun a b => .ok (a + b), by simp [execute], fun a b _ => ⟨_, rfl, Int32.toInt_add a b⟩,
      nofun⟩
  case subtract =>
    exact ⟨fun a b => .ok (a - b), by simp [execute], fun a b _ => ⟨_, rfl, Int32.toInt_sub a b⟩,
      nofun⟩
  case multiply =>
    exact ⟨fun a b => .ok (a * b), by simp [execute], fun a b _ => ⟨_, rfl, Int32.toInt_mul a b⟩,
      nofun⟩
  case divide =>
    refine ⟨quotient, by simp [execute],
      fun a b hb => ⟨a / b, ?_, Int32.toInt_div a b⟩, fun _ a => ?_⟩
    · have hb : b ≠ 0 := by simpa using hb
      simp [quotient, hb]
    · simp [quotient]
  case equal =>
    refine ⟨fun a b => .ok (if a = b then 1 else 0), by simp [execute],
      fun a b _ => ⟨_, rfl, ?_⟩, nofun⟩
    simp only [Int32.toInt_inj]
    split <;> rfl

theorem Rule.sound (running : m.halted = false) (h : Rule m r) :
    m.step.mapError Fault.kind = r := by
  -- at a known opcode, what `execute` does is its branch by definition
  cases h with
  | outside h =>
    simp only [step, running, current?_eq_none_iff.2 h]
    rfl
  | push hi room ht =>
    exact step_of_execute running hi ((grow_of_room room).trans (by simp [reaches_iff.1 ht, next]))
  | pushFull hi full => exact step_of_refusal running hi (grow_of_full full)
  | duplicate hi nonneg held room hv ht =>
    obtain ⟨w, hw, hc⟩ := copy_of_held nonneg held
    obtain rfl : w = _ := Option.some_inj.1 (hw.symm.trans hv)
    refine step_of_execute running hi (hc.trans ?_)
    simp [reaches_iff.1 ht, grow_of_room room, next]
  | duplicateDeep hi deep => exact step_of_refusal running hi (copy_of_deep deep)
  | duplicateNegative hi _ neg => exact step_of_refusal running hi (copy_of_neg neg)
  | duplicateFull hi held nonneg full =>
    obtain ⟨w, _, hc⟩ := copy_of_held (m := m) nonneg (by omega)
    exact step_of_refusal running hi (hc.trans (grow_of_full full))
  | combine hi hf hv hz hw ht =>
    obtain ⟨g, hg, hok, _⟩ := execute_of_onIntegers (m := m) hf _
    obtain ⟨w, hgw, hw'⟩ := hok _ _ hz
    obtain rfl : w = _ := Int32.toInt_inj.1 (hw'.trans hw.symm)
    refine step_of_execute running hi (hg.trans ?_)
    simp [reaches_iff.1 ht, combine_of_pair hv, hgw, Except.map, next]
  | combineShort hi hf short =>
    obtain ⟨g, hg, _⟩ := execute_of_onIntegers (m := m) hf _
    exact step_of_refusal running hi (hg.trans (combine_of_short short))
  | @divideByZero x a below hi hv =>
    have hf : Opcode.divide.onIntegers? = some Int.tdiv := rfl
    obtain ⟨g, hg, _, hz⟩ := execute_of_onIntegers (m := m) hf x
    have refused : m.combine g = .error (.divisionByZero a) := by
      rw [combine_of_pair hv, hz rfl]
      rfl
    exact step_of_refusal running hi (hg.trans refused)
  | jump hi nonneg lt ht =>
    exact step_of_execute running hi ((if_pos ⟨nonneg, lt⟩).trans (by simp [reaches_iff.1 ht]))
  | @jumpOutside target hi out =>
    have outside : ¬ (0 ≤ target.toInt ∧ target.toInt < m.instructions.length) := by omega
    exact step_of_refusal running hi (if_neg outside)
  | @branchShort target hi hv =>
    have refused : m.branchTo target = .error (.missingValues 1 0) := by
      simp [branchTo, List.reverse_eq_nil_iff.1 hv]
    exact step_of_refusal running hi refused
  | @branchTaken target below t hi hv ht =>
    have taken : m.branchTo target = .ok t := by
      simp [branchTo, values_eq_append_iff.1 hv, reaches_iff.1 ht]
    exact step_of_execute running hi taken
  | @branchPassed target c below t hi hv hc ht =>
    have passed : m.branchTo target = .ok t := by
      simp [branchTo, values_eq_append_iff.1 hv, hc, reaches_iff.1 ht, next]
    exact step_of_execute running hi passed
  | halt hi ht => exact step_of_execute running hi (by simp [execute, reaches_iff.1 ht])
  | @unknown i hi outside =>
    have refused : m.execute i = .error .unknownOpcode := by
      simp [execute, Instruction.opcode?, Opcode.ofTag?_eq_none_iff.2 outside]
    exact step_of_refusal running hi refused

/-! ### Every step is covered by a rule -/

theorem exists_rule_duplicate {k : Int32} (hi : m.Fetches (.of .duplicate k)) :
    ∃ r, Rule m r := by
  by_cases deep : m.values.length - k.toInt ≤ 0
  · exact ⟨_, .duplicateDeep hi deep⟩
  by_cases neg : k.toInt < 0
  · exact ⟨_, .duplicateNegative hi (by omega) neg⟩
  by_cases full : m.Full
  · exact ⟨_, .duplicateFull hi (by omega) (by omega) full⟩
  obtain ⟨v, hv, _⟩ := copy_of_held (m := m) (k := k) (by omega) (by omega)
  exact ⟨_, .duplicate hi (by omega) (by omega) full hv (reaches_iff.2 rfl)⟩

theorem exists_pair (enough : 2 ≤ m.values.length) : ∃ below a b, m.values = below ++ [a, b] := by
  rw [length_values, depth] at enough
  match hs : m.stack, enough with
  | b :: a :: rest, _ => exact ⟨rest.reverse, a, b, values_eq_append_iff.2 (by simp [hs])⟩

theorem exists_rule_combine {op : Opcode} {x : Int32} {f : Int → Int → Int}
    (hf : op.onIntegers? = some f) (hi : m.Fetches (.of op x)) : ∃ r, Rule m r := by
  by_cases short : m.values.length < 2
  · exact ⟨_, .combineShort hi hf short⟩
  obtain ⟨below, a, b, pair⟩ := exists_pair (m := m) (by omega)
  by_cases zero : op = .divide ∧ b = 0
  · obtain ⟨rfl, rfl⟩ := zero
    exact ⟨_, .divideByZero hi pair⟩
  · obtain ⟨_, _, hok, _⟩ := execute_of_onIntegers (m := m) hf x
    obtain ⟨v, _, hv⟩ := hok a b zero
    exact ⟨_, .combine hi hf pair zero hv (reaches_iff.2 rfl)⟩

/-- Some rule applies to every running machine. -/
theorem exists_rule (m : Machine) : ∃ r, Rule m r := by
  cases hc : m.current? with
  | none => exact ⟨_, .outside (current?_eq_none_iff.1 hc)⟩
  | some i =>
    have hi := fetches_iff.2 hc
    cases ho : i.opcode? with
    | none => exact ⟨_, .unknown hi (Opcode.ofTag?_eq_none_iff.1 ho)⟩
    | some op =>
      rw [Instruction.opcode?_eq_some_iff.1 ho] at hi
      cases op with
      | push =>
        by_cases full : m.Full
        · exact ⟨_, .pushFull hi full⟩
        · exact ⟨_, .push hi full (reaches_iff.2 rfl)⟩
      | duplicate => exact exists_rule_duplicate hi
      | add => exact exists_rule_combine rfl hi
      | subtract => exact exists_rule_combine rfl hi
      | multiply => exact exists_rule_combine rfl hi
      | divide => exact exists_rule_combine rfl hi
      | equal => exact exists_rule_combine rfl hi
      | jump =>
        by_cases out : i.operand.toInt < 0 ∨ m.instructions.length ≤ i.operand.toInt
        · exact ⟨_, .jumpOutside hi out⟩
        · exact ⟨_, .jump hi (by omega) (by omega) (reaches_iff.2 rfl)⟩
      | jumpIfTrue =>
        obtain hv | ⟨below, c, hv⟩ := List.eq_nil_or_concat m.values
        · exact ⟨_, .branchShort hi hv⟩
        rw [List.concat_eq_append] at hv
        by_cases hc : c = 1
        · exact ⟨_, .branchTaken hi (hc ▸ hv) (reaches_iff.2 rfl)⟩
        · exact ⟨_, .branchPassed hi hv hc (reaches_iff.2 rfl)⟩
      | halt => exact ⟨_, .halt hi (reaches_iff.2 rfl)⟩

/-- No step changes the program or the bound on the stack. -/
theorem Rule.keeps (h : Rule m (.ok t)) : t.program = m.program ∧ t.limit = m.limit := by
  cases h with
  | push _ _ ht | duplicate _ _ _ _ _ ht | combine _ _ _ _ _ ht | jump _ _ _ ht
  | branchTaken _ _ ht | branchPassed _ _ _ ht | halt _ ht => exact ⟨ht.program, ht.limit⟩

theorem rule_of_step (running : m.halted = false) : Rule m (m.step.mapError Fault.kind) := by
  obtain ⟨r, hr⟩ := exists_rule m
  rwa [hr.sound running]

/-- A step of a running machine gives exactly what the rules say: the rules cover every state, and
no two of them disagree. -/
theorem step_eq_iff_rule (m : Machine) (running : m.halted = false) (r : Except Kind Machine) :
    m.step.mapError Fault.kind = r ↔ Rule m r := by
  constructor
  · rintro rfl
    exact rule_of_step running
  · exact Rule.sound running

/-- The least word divided by minus one is the least word again. -/
theorem rule_divide_least :
    let m : Machine := { stack := [-1, Int32.minValue], program := some [.divide] }
    m.halted = false ∧ Rule m (.ok { m with stack := [Int32.minValue], pc := 1 }) :=
  ⟨rfl, (step_eq_iff_rule _ rfl _).1 rfl⟩

end Machine

end StackMachine
