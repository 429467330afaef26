import StackMachine.Proofs.StackBounds

/-!
# Values below

Instructions find their values by counting from the top of the stack. What lies below the values
that a run needs is neither read nor changed by it: on a deeper stack the same steps are taken, and
they fault in the same way, unless it was for lack of values.
-/

namespace StackMachine.Machine

open Fault (Cause)

variable {m : Machine} {base : List Int32}

/-- The same machine with further values below those that it has. -/
def above (m : Machine) (base : List Int32) : Machine :=
  { m with stack := (base ++ m.values).reverse }

@[simp] theorem values_above (m : Machine) (base : List Int32) :
    (m.above base).values = base ++ m.values := List.reverse_reverse _

@[simp] theorem stack_above (m : Machine) (base : List Int32) :
    (m.above base).stack = m.stack ++ base.reverse := by
  simp [above]

@[simp] theorem halted_above (m : Machine) (base : List Int32) :
    (m.above base).halted = m.halted := rfl

@[simp] theorem limit_above (m : Machine) (base : List Int32) :
    (m.above base).limit = m.limit := rfl

@[simp] theorem pc_above (m : Machine) (base : List Int32) : (m.above base).pc = m.pc := rfl

@[simp] theorem instructions_above (m : Machine) (base : List Int32) :
    (m.above base).instructions = m.instructions := rfl

@[simp] theorem current?_above (m : Machine) (base : List Int32) :
    (m.above base).current? = m.current? := rfl

theorem next_above (m : Machine) (base stack : List Int32) :
    (m.above base).next (stack ++ base.reverse) = (m.next stack).above base := by
  simp [next, above, values]

/-! ### One step -/

/-- The second result is the first one on a deeper stack. Nothing is said about it where the first
one lacks values. -/
def Deepens (base : List Int32) : Except Cause Machine → Except Cause Machine → Prop
  | .ok t, r => r = .ok (t.above base)
  | .error cause, r => cause.kind ≠ .stackUnderflow → r = .error cause

theorem deepens_grow (free : m.limit = 0) (v : Int32) :
    Deepens base (m.grow v) ((m.above base).grow v) := by
  have free' : (m.above base).limit = 0 := (limit_above m base).trans free
  rw [grow_of_room (not_full_of_free free), grow_of_room (not_full_of_free free'), stack_above,
    ← List.cons_append, next_above]
  rfl

theorem deepens_copy (free : m.limit = 0) (k : Int32) :
    Deepens base (m.copy k) ((m.above base).copy k) := by
  by_cases negative : k.toInt < 0
  · rw [copy_of_neg negative, copy_of_neg negative]
    exact fun _ => rfl
  · have nonneg : 0 ≤ k.toInt := by omega
    rw [copy_of_nonneg nonneg, copy_of_nonneg nonneg, stack_above]
    cases hv : m.stack[k.toInt.toNat]? with
    | none => exact fun enough => absurd rfl enough
    | some v =>
      obtain ⟨held, -⟩ := List.getElem?_eq_some_iff.1 hv
      rw [List.getElem?_append_left held, hv]
      exact deepens_grow free v

theorem deepens_combine (g : Int32 → Int32 → Except Cause Int32) :
    Deepens base (m.combine g) ((m.above base).combine g) := by
  unfold combine
  rw [stack_above]
  match m.stack with
  | [] | [_] => exact fun enough => absurd rfl enough
  | b :: a :: rest =>
    simp only [List.cons_append]
    cases g a b with
    | error cause => exact fun _ => rfl
    | ok v =>
      simp only [← List.cons_append, next_above]
      rfl

theorem deepens_jumpTo (target : Int32) :
    Deepens base (m.jumpTo target) ((m.above base).jumpTo target) := by
  unfold jumpTo
  rw [instructions_above]
  by_cases inside : 0 ≤ target.toInt ∧ target.toInt < m.instructions.length
  · simp only [inside]
    rfl
  · simp only [inside]
    exact fun _ => rfl

theorem deepens_branchTo (target : Int32) :
    Deepens base (m.branchTo target) ((m.above base).branchTo target) := by
  unfold branchTo
  rw [stack_above]
  match m.stack with
  | [] => exact fun enough => absurd rfl enough
  | v :: rest =>
    simp only [List.cons_append]
    by_cases one : v = 1
    · simp [one, Deepens, above, values]
    · simp only [one, ← List.cons_append, next_above]
      rfl

theorem deepens_execute (base : List Int32) (free : m.limit = 0) (i : Instruction) :
    Deepens base (m.execute i) ((m.above base).execute i) := by
  unfold execute
  cases i.opcode? with
  | none => exact fun _ => rfl
  | some op =>
    cases op with
    | push => exact deepens_grow free i.operand
    | duplicate => exact deepens_copy free i.operand
    | add | subtract | multiply | divide | equal => exact deepens_combine _
    | jump => exact deepens_jumpTo i.operand
    | jumpIfTrue => exact deepens_branchTo i.operand
    | halt => rfl

/-- Unless it lacks values, an attempt does the same on a deeper stack. -/
theorem attempt_above (free : m.limit = 0)
    (enough : ∀ f, m.attempt.2 = some f → f.kind ≠ .stackUnderflow) :
    (m.above base).attempt = (m.attempt.1.above base, m.attempt.2) := by
  rw [attempt_eq] at enough
  rw [attempt_eq, attempt_eq]
  unfold step at enough ⊢
  rw [halted_above, current?_above]
  cases halted : m.halted with
  | true => rfl
  | false =>
    cases hc : m.current? with
    | none => rfl
    | some i =>
      have deepens := deepens_execute base free i
      simp only [halted, hc] at enough ⊢
      cases he : m.execute i with
      | ok t =>
        rw [he] at deepens
        rw [show (m.above base).execute i = .ok (t.above base) from deepens]
        rfl
      | error cause =>
        rw [he] at deepens enough
        rw [show (m.above base).execute i = .error cause from deepens (enough _ rfl)]
        rfl

/-! ### Whole runs -/

theorem after_above (free : m.limit = 0) {n : Nat}
    (succeed : ∀ k < n, (m.after k).attempt.2 = none) :
    (m.above base).after n = (m.after n).above base := by
  induction n with
  | zero => rfl
  | succ n ih =>
    have still : (m.after n).limit = 0 := (m.after_keeps n).2.trans free
    have last : (m.after n).attempt.2 = none := succeed n (Nat.lt_succ_self n)
    rw [after, ih fun k lt => succeed k (by omega), attempt_above still (by simp [last])]
    rfl

/-- Steps that succeed without a bound on the stack succeed with any values below, which they leave
as they are, and lead to the same index. If the next step faults for any reason but a lack of
values, it faults in the same way with those values below. -/
theorem values_below_stay_untouched (m : Machine) (free : m.limit = 0) (base : List Int32) (n : Nat)
    (succeed : ∀ k < n, (m.after k).attempt.2 = none) :
    let t := m.after n
    let u := (m.above base).after n
    (∀ k < n, ((m.above base).after k).attempt.2 = none) ∧
    u.values = base ++ t.values ∧ u.pc = t.pc ∧ u.halted = t.halted ∧
    ∀ f, t.attempt.2 = some f → f.kind ≠ .stackUnderflow → u.attempt = (u, some f) := by
  intro t u
  have still (k : Nat) : (m.after k).limit = 0 := (m.after_keeps k).2.trans free
  have deeper : u = t.above base := after_above free succeed
  refine ⟨?_, ?_, ?_, ?_, ?_⟩
  · intro k lt
    have before : (m.above base).after k = (m.after k).above base :=
      after_above free fun j lt' => succeed j (by omega)
    rw [before, attempt_above (still k) (by simp [succeed k lt])]
    exact succeed k lt
  · rw [deeper, values_above]
  · rw [deeper, pc_above]
  · rw [deeper, halted_above]
  · intro f fault enough
    have unchanged : t.attempt.1 = t := (attempt_eq_fault_iff.1 (Prod.ext rfl fault)).1
    have enough : ∀ g, t.attempt.2 = some g → g.kind ≠ .stackUnderflow := by
      intro g same
      rwa [← Option.some.inj (fault.symm.trans same)]
    rw [deeper, attempt_above (still n) enough, unchanged, fault]

/-- The difference of a value and its copy, as the divisor of another value. Neither of the two
values below is looked at. -/
theorem division_leaves_values_below :
    let m : Machine :=
      { stack := [7], program := some [.duplicate 0, .subtract, .push 5, .duplicate 1, .divide] }
    let u := (m.above [3, 4]).after 4
    m.limit = 0 ∧ (∀ k < 4, (m.after k).attempt.2 = none) ∧ u.values = [3, 4, 0, 5, 0] ∧
      u.attempt = (u, some ⟨4, some 5, .divisionByZero 5⟩) := by
  intro m u
  have succeed : ∀ k < 4, (m.after k).attempt.2 = none := by decide
  obtain ⟨-, values, -, -, fault⟩ := values_below_stay_untouched m rfl [3, 4] 4 succeed
  have top : (m.after 4).values = [0, 5, 0] := by decide
  rw [top] at values
  exact ⟨rfl, succeed, values, fault _ (by decide) (by decide)⟩

end StackMachine.Machine
