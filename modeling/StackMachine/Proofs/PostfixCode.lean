import Mathlib.Order.Bounds.Defs
import StackMachine.Proofs.RunLoop
import StackMachine.Proofs.StackBounds

/-!
# Postfix code

The postfix code of an expression pushes its constants from left to right and has every operator
behind its two operands. Running the code leaves the value of the expression on top of the stack,
whatever was there before. An expression without a value divides by zero, and the code faults at the
first operator that does.
-/

namespace StackMachine

/-! ### Expressions -/

inductive Operator where
  | add
  | subtract
  | multiply
  | divide
  | equal
  deriving DecidableEq, Repr

namespace Operator

def opcode : Operator → Opcode
  | add => .add
  | subtract => .subtract
  | multiply => .multiply
  | divide => .divide
  | equal => .equal

/-- The result of an operator before it is wrapped to a word. -/
def exact : Operator → Int → Int → Int
  | add => (· + ·)
  | subtract => (· - ·)
  | multiply => (· * ·)
  | divide => Int.tdiv
  | equal => fun a b => if a = b then 1 else 0

theorem onIntegers?_opcode (op : Operator) : op.opcode.onIntegers? = some op.exact := by
  cases op <;> rfl

theorem opcode_eq_divide_iff {op : Operator} : op.opcode = .divide ↔ op = .divide := by
  cases op <;> decide

end Operator

inductive Expression where
  | constant (v : Int32)
  | apply (op : Operator) (left right : Expression)
  deriving DecidableEq, Repr

namespace Expression

/-- The value of an expression, the left operand first; there is none if a divisor is zero. -/
def value? : Expression → Option Int32
  | constant v => some v
  | apply op left right => do
    let a ← left.value?
    let b ← right.value?
    if op = .divide ∧ b = 0 then none else some (.ofInt (op.exact a.toInt b.toInt))

/-- The number of constants and operators. -/
def size : Expression → Nat
  | constant _ => 1
  | apply _ left right => left.size + right.size + 1

/-- The program is postfix code of the expression. Operators ignore the operand of their
instruction. -/
inductive Postfix : Expression → Program → Prop where
  | constant (v : Int32) : Postfix (.constant v) [.of .push v]
  | apply {left right : Expression} {p q : Program} (op : Operator) (x : Int32) :
      Postfix left p → Postfix right q →
      Postfix (.apply op left right) (p ++ q ++ [.of op.opcode x])

/-- The constant or operator with the index `k`, counted in postfix order, is this operator with
these operands. -/
inductive Applies : Expression → Nat → Operator → Expression → Expression → Prop where
  | here (op : Operator) (left right : Expression) :
      Applies (.apply op left right) (left.size + right.size) op left right
  | left {left right a b : Expression} {k : Nat} {op op' : Operator} :
      Applies left k op a b → Applies (.apply op' left right) k op a b
  | right {left right a b : Expression} {k : Nat} {op op' : Operator} :
      Applies right k op a b → Applies (.apply op' left right) (left.size + k) op a b

/-- The operator with the index `k` is a division by an expression that is zero. -/
def DividesByZero (e : Expression) (k : Nat) : Prop :=
  ∃ a b, e.Applies k .divide a b ∧ b.value? = some 0

variable {e left right a b : Expression} {op : Operator} {k : Nat} {v x y : Int32}
  {code p q : Program}

theorem value?_apply_eq_some_iff :
    (apply op left right).value? = some v ↔ ∃ x y, left.value? = some x ∧ right.value? = some y ∧
      ¬ (op = .divide ∧ y = 0) ∧ v = .ofInt (op.exact x.toInt y.toInt) := by
  simp only [value?, Option.bind_eq_bind, Option.bind_eq_some_iff]
  grind

theorem Postfix.length_eq (h : e.Postfix code) : code.length = e.size := by
  induction h with
  | constant => rfl
  | apply op x _ _ left right =>
    simp only [List.length_append, List.length_singleton, left, right, size]

/-- The operands of an operator have a value if the whole expression has one. -/
theorem Applies.exists_values (h : e.Applies k op a b) (whole : e.value? = some v) :
    ∃ x y, a.value? = some x ∧ b.value? = some y ∧ ¬ (op = .divide ∧ y = 0) := by
  induction h generalizing v with
  | here =>
    obtain ⟨x, y, hx, hy, nonzero, -⟩ := value?_apply_eq_some_iff.1 whole
    exact ⟨x, y, hx, hy, nonzero⟩
  | left _ ih =>
    obtain ⟨x, -, hx, -⟩ := value?_apply_eq_some_iff.1 whole
    exact ih hx
  | right _ ih =>
    obtain ⟨-, y, -, hy, -⟩ := value?_apply_eq_some_iff.1 whole
    exact ih hy

theorem not_dividesByZero (whole : e.value? = some v) (k : Nat) : ¬ e.DividesByZero k := by
  rintro ⟨a, b, applies, zero⟩
  obtain ⟨-, y, -, hy, nonzero⟩ := applies.exists_values whole
  rw [zero, Option.some.injEq] at hy
  exact nonzero ⟨rfl, hy.symm⟩

/-! ### The first division by zero -/

/-- Evaluation from left to right fails at the operator with the index `k`. -/
inductive FailsAt : Expression → Nat → Prop where
  | left {left right : Expression} {k : Nat} (op : Operator) : FailsAt left k →
      FailsAt (.apply op left right) k
  | right {left right : Expression} {k : Nat} {x : Int32} (op : Operator) :
      left.value? = some x → FailsAt right k → FailsAt (.apply op left right) (left.size + k)
  | here {left right : Expression} {x : Int32} : left.value? = some x → right.value? = some 0 →
      FailsAt (.apply .divide left right) (left.size + right.size)

theorem exists_failsAt (h : e.value? = none) : ∃ k, e.FailsAt k := by
  induction e with
  | constant v => cases h
  | apply op left right ihl ihr =>
    cases hl : left.value? with
    | none =>
      obtain ⟨k, fails⟩ := ihl hl
      exact ⟨k, .left op fails⟩
    | some x =>
      cases hr : right.value? with
      | none =>
        obtain ⟨k, fails⟩ := ihr hr
        exact ⟨_, .right op hl fails⟩
      | some y =>
        obtain ⟨rfl, rfl⟩ : op = .divide ∧ y = 0 := by simpa [value?, hl, hr] using h
        exact ⟨_, .here hl hr⟩

theorem FailsAt.lt_size (h : e.FailsAt k) : k < e.size := by
  induction h with
  | left op _ ih | right op _ _ ih =>
    simp only [size]
    omega
  | here => simp [size]

theorem FailsAt.dividesByZero (h : e.FailsAt k) : e.DividesByZero k := by
  induction h with
  | left op _ ih =>
    obtain ⟨a, b, applies, zero⟩ := ih
    exact ⟨a, b, .left applies, zero⟩
  | right op _ _ ih =>
    obtain ⟨a, b, applies, zero⟩ := ih
    exact ⟨a, b, .right applies, zero⟩
  | here _ zero => exact ⟨_, _, .here .divide _ _, zero⟩

/-- Evaluation fails at the first operator that divides by zero. -/
theorem FailsAt.isLeast (h : e.FailsAt k) : IsLeast {k | e.DividesByZero k} k := by
  refine ⟨h.dividesByZero, ?_⟩
  rintro j ⟨a, b, applies, zero⟩
  induction h generalizing j with
  | left op fails ih =>
    have := fails.lt_size
    cases applies with
    | here => omega
    | left applies => exact ih applies
    | right => omega
  | right op hl fails ih =>
    have := fails.lt_size
    cases applies with
    | here => omega
    | left applies => exact absurd ⟨a, b, applies, zero⟩ (not_dividesByZero hl j)
    | right applies => exact Nat.add_le_add_left (ih applies) _
  | here hl hr =>
    cases applies with
    | here => exact le_rfl
    | left applies => exact absurd ⟨a, b, applies, zero⟩ (not_dividesByZero hl j)
    | right applies => exact absurd ⟨a, b, applies, zero⟩ (not_dividesByZero hr _)

end Expression

/-! ### Running code -/

namespace Machine

open Expression

variable {m t : Machine} {e : Expression} {code p q : Program} {i : Instruction} {k : Nat}
  {v a b : Int32}

/-- The code stands in the program, and its first instruction is the next one. -/
def Faces (m : Machine) (code : Program) : Prop :=
  ∃ before after, m.instructions = before ++ code ++ after ∧ m.pc = before.length

/-- The machine behind `n` instructions that have pushed one value. -/
def past (m : Machine) (n : Nat) (v : Int32) : Machine :=
  { m with stack := v :: m.stack, pc := m.pc + n }

theorem reaches_past (m : Machine) (n : Nat) (v : Int32) :
    m.Reaches (m.values ++ [v]) (m.pc + n) (m.past n v) :=
  ⟨by simp [past, values], rfl, rfl, rfl, rfl⟩

theorem Faces.fetches (h : m.Faces (i :: code)) : m.Fetches i := by
  obtain ⟨before, after, program, pc⟩ := h
  exact ⟨before.length, pc, by simp [program]⟩

theorem Faces.left (h : m.Faces (p ++ q)) : m.Faces p := by
  obtain ⟨before, after, program, pc⟩ := h
  exact ⟨before, q ++ after, by simp [program], pc⟩

/-- Behind the first part of the code stands the second. -/
theorem Faces.right (h : m.Faces (p ++ q)) (program : t.program = m.program)
    (pc : t.pc = m.pc + p.length) : t.Faces q := by
  obtain ⟨before, after, whole, start⟩ := h
  refine ⟨before ++ p, after, ?_, ?_⟩
  · rw [instructions, program, ← instructions, whole]
    simp
  · rw [pc, start]
    simp

theorem step_of_push (free : m.limit = 0) (running : m.halted = false)
    (hi : m.Fetches (.of .push v)) : m.step = .ok (m.past 1 v) := by
  have room := not_full_of_free free
  simp [step, running, fetches_iff.1 hi, execute, grow_of_room room, past, next]

/-- An operator replaces its two operands by its result. -/
theorem step_of_operator {op : Operator} {x : Int32} (running : m.halted = false)
    (hi : m.Fetches (.of op.opcode x)) {below : List Int32} (operands : m.stack = b :: a :: below)
    (nonzero : ¬ (op = .divide ∧ b = 0)) :
    m.step = .ok { m with
      stack := .ofInt (op.exact a.toInt b.toInt) :: below
      pc := m.pc + 1 } := by
  have pair : m.values = below.reverse ++ [a, b] := values_eq_append_iff.2 (by simpa using operands)
  have rule : Rule m (.ok { m with
      stack := .ofInt (op.exact a.toInt b.toInt) :: below
      pc := m.pc + 1 }) := by
    refine .combine hi op.onIntegers?_opcode pair ?_ (Int32.toInt_ofInt ..) (reaches_iff.2 ?_)
    · rwa [Operator.opcode_eq_divide_iff]
    · simp
  have ok := rule.sound running
  cases hs : m.step with
  | ok t => simpa [hs, Except.mapError] using ok
  | error f => simp [hs, Except.mapError] at ok

theorem attempt_of_zero_divisor {x : Int32} (running : m.halted = false)
    (hi : m.Fetches (.of .divide x)) {below : List Int32} (operands : m.stack = 0 :: a :: below) :
    ∃ f, m.attempt = (m, some f) ∧ f.kind = .divisionByZero := by
  refine ⟨⟨m.pc, some (Instruction.of .divide x).tag, .divisionByZero a⟩, attempt_of_fault ?_, rfl⟩
  simp [step, running, fetches_iff.1 hi, execute, combine, operands, quotient]

/-- Code of an expression with a value pushes the value. -/
theorem advances_of_value (coded : e.Postfix code) (value : e.value? = some v)
    (free : m.limit = 0) (running : m.halted = false) (faces : m.Faces code) :
    m.Advances code.length (m.past code.length v) := by
  -- by induction on the expression, for any stack below and any program around the code
  induction coded generalizing m v with
  | constant =>
    cases value
    exact .next running (step_of_push free running faces.fetches) (.refl _)
  | @apply left right p q op x _ _ ihl ihr =>
    obtain ⟨a, b, ha, hb, nonzero, rfl⟩ := value?_apply_eq_some_iff.1 value
    have first : m.Advances p.length (m.past p.length a) := ihl ha free running faces.left.left
    have second : (m.past p.length a).Advances q.length ((m.past p.length a).past q.length b) :=
      ihr hb free running (faces.left.right rfl rfl)
    have last : ((m.past p.length a).past q.length b).Faces [.of op.opcode x] :=
      faces.right rfl (by simp [past, Int.add_assoc])
    have third := step_of_operator (m := (m.past p.length a).past q.length b) running last.fetches
      rfl nonzero
    have all := (first.trans second).snoc running third
    have length : (p ++ q ++ [Instruction.of op.opcode x]).length = p.length + q.length + 1 := by
      simp [Nat.add_assoc]
    rw [length]
    simpa [past, Int.add_assoc] using all

/-- Code of an expression without a value runs up to the operator where evaluation fails. -/
theorem advances_of_failsAt (coded : e.Postfix code) (fails : e.FailsAt k) (free : m.limit = 0)
    (running : m.halted = false) (faces : m.Faces code) :
    ∃ t x below, m.Advances k t ∧ t.pc = m.pc + k ∧ t.halted = false ∧
      t.Fetches (.of .divide x) ∧ ∃ a, t.stack = 0 :: a :: below := by
  induction coded generalizing m k with
  | constant => cases fails
  | @apply left right p q op x cl cr ihl ihr =>
    cases fails with
    | left _ fails => exact ihl fails free running faces.left.left
    | @right _ _ _ a _ ha fails =>
      have first := advances_of_value cl ha free running faces.left.left
      obtain ⟨t, y, below, second, pc, rest⟩ :=
        ihr (m := m.past p.length a) fails free running (faces.left.right rfl rfl)
      rw [← cl.length_eq]
      refine ⟨t, y, below, first.trans second, ?_, rest⟩
      rw [pc]
      simp [past, Int.add_assoc]
    | @here _ _ a ha hb =>
      have first := advances_of_value cl ha free running faces.left.left
      have second := advances_of_value (m := m.past p.length a) cr hb free running
        (faces.left.right rfl rfl)
      have last : ((m.past p.length a).past q.length 0).Faces [.of .divide x] :=
        faces.right rfl (by simp [past, Int.add_assoc])
      rw [← cl.length_eq, ← cr.length_eq]
      refine ⟨_, x, _, first.trans second, ?_, running, last.fetches, a, rfl⟩
      simp [past, Int.add_assoc]

/-- A machine without a bound on its stack that comes to postfix code of an expression takes one
step for each instruction of the code and has then pushed the value of the expression. If there is
no value, it takes steps up to the first operator that divides by zero, and faults there. -/
theorem postfix_code_evaluates (e : Expression) (code : Program) (coded : e.Postfix code)
    (m : Machine) (free : m.limit = 0) (running : m.halted = false) (faces : m.Faces code) :
    (∀ v, e.value? = some v → ∃ t, m.Advances code.length t ∧
      m.Reaches (m.values ++ [v]) (m.pc + code.length) t) ∧
    (e.value? = none → ∃ k t, IsLeast {k | e.DividesByZero k} k ∧ k < code.length ∧
      m.Advances k t ∧ t.pc = m.pc + k ∧ (∃ i, t.Fetches i ∧ i.opcode? = some .divide) ∧
      ∃ f, t.attempt = (t, some f) ∧ f.kind = .divisionByZero) := by
  refine ⟨?_, ?_⟩
  · intro v value
    exact ⟨_, advances_of_value coded value free running faces, reaches_past m code.length v⟩
  · intro none
    obtain ⟨k, fails⟩ := exists_failsAt none
    obtain ⟨t, x, below, advances, pc, running', hi, a, operands⟩ :=
      advances_of_failsAt coded fails free running faces
    have lt : k < code.length := coded.length_eq ▸ fails.lt_size
    exact ⟨k, t, fails.isLeast, lt, advances, pc, ⟨_, hi, by simp⟩,
      attempt_of_zero_divisor running' hi operands⟩

/-- Code for `(-2147483648 / -1) * (1 / (2 - 2))` behind an instruction that is never executed. Its
first three instructions divide without a fault. -/
theorem postfix_code_divides_twice :
    let quotient : Expression := .apply .divide (.constant Int32.minValue) (.constant (-1))
    let zero : Expression := .apply .subtract (.constant 2) (.constant 2)
    let e : Expression := .apply .multiply quotient (.apply .divide (.constant 1) zero)
    let m : Machine := { stack := [9], pc := 1, program := some [.halt, .push Int32.minValue,
      .push (-1), .divide, .push 1, .push 2, .push 2, .subtract, .divide, .multiply] }
    (∃ t, m.Advances 3 t ∧ m.Reaches [9, Int32.minValue] 4 t) ∧
      ∃ k t, IsLeast {k | e.DividesByZero k} k ∧ m.Advances k t ∧ t.pc = 1 + k ∧
        ∃ f, t.attempt = (t, some f) ∧ f.kind = .divisionByZero := by
  intro quotient zero e m
  have coded : quotient.Postfix [.push Int32.minValue, .push (-1), .divide] :=
    .apply .divide 0 (.constant _) (.constant _)
  have codedWhole : e.Postfix [.push Int32.minValue, .push (-1), .divide, .push 1, .push 2, .push 2,
      .subtract, .divide, .multiply] :=
    .apply .multiply 0 coded
      (.apply .divide 0 (.constant 1) (.apply .subtract 0 (.constant 2) (.constant 2)))
  have faces : m.Faces [.push Int32.minValue, .push (-1), .divide] :=
    ⟨[.halt], [.push 1, .push 2, .push 2, .subtract, .divide, .multiply], rfl, rfl⟩
  have facesWhole : m.Faces [.push Int32.minValue, .push (-1), .divide, .push 1, .push 2, .push 2,
      .subtract, .divide, .multiply] := ⟨[.halt], [], rfl, rfl⟩
  obtain ⟨evaluates, -⟩ := postfix_code_evaluates quotient _ coded m rfl rfl faces
  obtain ⟨-, fails⟩ := postfix_code_evaluates e _ codedWhole m rfl rfl facesWhole
  obtain ⟨k, t, least, -, advances, pc, -, fault⟩ := fails (by decide)
  exact ⟨evaluates Int32.minValue (by decide), k, t, least, advances, pc, fault⟩

end Machine

end StackMachine
