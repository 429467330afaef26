import StackMachine.Proofs.RunLoop

/-!
# Bounded stacks

A bound on the stack stops only instructions that push, and only those that would leave more values
than the bound allows. So a machine under a bound takes the steps that it takes without one, until
it faults for lack of room, and a run that stays within the bound does not show it.
-/

namespace StackMachine

/-- The instruction pushes a value onto a stack of this depth, if there is room for it. -/
def Instruction.PushesOn (i : Instruction) (depth : Nat) : Prop :=
  i.opcode? = some .push ∨
    i.opcode? = some .duplicate ∧ 0 ≤ i.operand.toInt ∧ i.operand.toInt < depth

namespace Machine

open Fault (Cause)

variable {m t : Machine} {n : Int} {i : Instruction} {f : Fault}

/-- The same machine under another bound; a bound that is not positive is none. -/
def bounded (m : Machine) (maxStack : Int) : Machine := { m with limit := maxStack.toNat }

/-- The machine is about to push a value. -/
def Pushes (m : Machine) : Prop := m.halted = false ∧ ∃ i, m.Fetches i ∧ i.PushesOn m.depth

@[simp] theorem stack_bounded (m : Machine) (n : Int) : (m.bounded n).stack = m.stack := rfl

@[simp] theorem depth_bounded (m : Machine) (n : Int) : (m.bounded n).depth = m.depth := rfl

@[simp] theorem halted_bounded (m : Machine) (n : Int) : (m.bounded n).halted = m.halted := rfl

@[simp] theorem limit_bounded (m : Machine) (n : Int) : (m.bounded n).limit = n.toNat := rfl

@[simp] theorem current?_bounded (m : Machine) (n : Int) :
    (m.bounded n).current? = m.current? := rfl

theorem pushes_bounded_iff : (m.bounded n).Pushes ↔ m.Pushes := Iff.rfl

/-! ### One step under a bound -/

theorem full_bounded_iff (pos : 0 < n) : (m.bounded n).Full ↔ n ≤ m.depth := by
  rw [Full, length_values, limit_bounded, depth_bounded]
  omega

theorem not_full_of_free (free : m.limit = 0) : ¬ m.Full := by
  rw [Full, free]
  omega

theorem grow_bounded (pos : 0 < n) (free : m.limit = 0) (room : m.depth < n) (v : Int32) :
    (m.bounded n).grow v = (m.grow v).map (·.bounded n) := by
  have roomy : ¬ (m.bounded n).Full := by
    rw [full_bounded_iff pos]
    omega
  rw [grow_of_room roomy, grow_of_room (not_full_of_free free)]
  rfl

theorem copy_bounded {k : Int32} (pos : 0 < n) (free : m.limit = 0)
    (room : 0 ≤ k.toInt → k.toInt < m.depth → m.depth < n) :
    (m.bounded n).copy k = (m.copy k).map (·.bounded n) := by
  by_cases negative : k.toInt < 0
  · rw [copy_of_neg negative, copy_of_neg negative]
    rfl
  · have nonneg : 0 ≤ k.toInt := by omega
    rw [copy_of_nonneg nonneg, copy_of_nonneg nonneg, stack_bounded]
    cases hv : m.stack[k.toInt.toNat]? with
    | none => rfl
    | some v =>
      obtain ⟨held, -⟩ := List.getElem?_eq_some_iff.1 hv
      exact grow_bounded pos free (room nonneg (by unfold depth; omega)) v

theorem combine_bounded (g : Int32 → Int32 → Except Cause Int32) :
    (m.bounded n).combine g = (m.combine g).map (·.bounded n) := by
  unfold combine
  rw [stack_bounded]
  match m.stack with
  | [] => rfl
  | [_] => rfl
  | b :: a :: rest => cases hg : g a b <;> simp [hg, Except.map, next, bounded]

theorem jumpTo_bounded (target : Int32) :
    (m.bounded n).jumpTo target = (m.jumpTo target).map (·.bounded n) := by
  have same : (m.bounded n).instructions = m.instructions := rfl
  unfold jumpTo
  rw [same]
  by_cases inside : 0 ≤ target.toInt ∧ target.toInt < m.instructions.length <;>
    simp [inside, Except.map, bounded]

theorem branchTo_bounded (target : Int32) :
    (m.bounded n).branchTo target = (m.branchTo target).map (·.bounded n) := by
  unfold branchTo
  rw [stack_bounded]
  cases m.stack with
  | nil => rfl
  | cons v rest => by_cases one : v = 1 <;> simp [one, Except.map, next, bounded]

theorem execute_bounded (pos : 0 < n) (free : m.limit = 0)
    (room : i.PushesOn m.depth → m.depth < n) :
    (m.bounded n).execute i = (m.execute i).map (·.bounded n) := by
  unfold execute
  cases ho : i.opcode? with
  | none => rfl
  | some op =>
    cases op with
    | push => exact grow_bounded pos free (room (.inl ho)) i.operand
    | duplicate =>
      exact copy_bounded pos free fun nonneg held => room (.inr ⟨ho, nonneg, held⟩)
    | add | subtract | multiply | divide | equal => exact combine_bounded _
    | jump => exact jumpTo_bounded i.operand
    | jumpIfTrue => exact branchTo_bounded i.operand
    | halt => rfl

/-- Unless there is no room for a value that is pushed, a step under a bound is the step without
one. -/
theorem attempt_bounded (pos : 0 < n) (free : m.limit = 0)
    (room : ¬ (m.Pushes ∧ n ≤ m.depth)) :
    (m.bounded n).attempt = (m.attempt.1.bounded n, m.attempt.2) := by
  have same : (m.bounded n).step = m.step.map (·.bounded n) := by
    unfold step
    rw [halted_bounded, current?_bounded]
    cases halted : m.halted with
    | true => rfl
    | false =>
      cases hc : m.current? with
      | none => rfl
      | some i =>
        have roomy : i.PushesOn m.depth → m.depth < n := by
          intro push
          by_contra full
          exact room ⟨⟨halted, i, fetches_iff.2 hc, push⟩, by omega⟩
        simp only [execute_bounded pos free roomy]
        cases m.execute i <;> rfl
  rw [attempt_eq, attempt_eq, same]
  cases m.step <;> rfl

/-! ### Steps that push -/

theorem execute_of_pushesOn (h : i.PushesOn m.depth) : ∃ v, m.execute i = m.grow v := by
  obtain op | ⟨op, nonneg, held⟩ := h
  · exact ⟨i.operand, by simp [execute, op]⟩
  · obtain ⟨v, -, hv⟩ := copy_of_held nonneg (length_values (m := m) ▸ held)
    exact ⟨v, by simp [execute, op, hv]⟩

theorem step_of_pushes (push : m.Pushes) (room : ¬ m.Full) :
    ∃ v, m.step = .ok (m.next (v :: m.stack)) := by
  obtain ⟨running, i, hi, pushes⟩ := push
  obtain ⟨v, hv⟩ := execute_of_pushesOn pushes
  exact ⟨v, by simp [step, running, fetches_iff.1 hi, hv, grow_of_room room]⟩

theorem step_of_pushes_full (push : m.Pushes) (full : m.Full) :
    ∃ f, m.step = .error f ∧ f.kind = .stackOverflow := by
  obtain ⟨running, i, hi, pushes⟩ := push
  obtain ⟨v, hv⟩ := execute_of_pushesOn pushes
  exact ⟨⟨m.pc, some i.tag, .stackFull m.limit⟩,
    by simp [step, running, fetches_iff.1 hi, hv, grow_of_full full], rfl⟩

/-- Whether a step that succeeds pushes a value shows in the depth of the stack. -/
theorem depth_of_rule (running : m.halted = false) (h : Rule m (.ok t)) :
    (m.Pushes ∧ ¬ m.Full ∧ t.depth = m.depth + 1) ∨ t.depth ≤ m.depth := by
  cases h with
  | push hi room ht =>
    refine .inl ⟨⟨running, _, hi, .inl (by simp)⟩, room, ?_⟩
    rw [← length_values, ht.values, List.length_append, length_values]
    rfl
  | duplicate hi nonneg held room _ ht =>
    rw [length_values] at held
    refine .inl ⟨⟨running, _, hi, .inr ⟨by simp, nonneg, held⟩⟩, room, ?_⟩
    rw [← length_values, ht.values, List.length_append, length_values]
    rfl
  | combine _ _ hv _ _ ht =>
    refine .inr ?_
    rw [← length_values, ← length_values, ht.values, hv]
    simp
  | branchTaken _ hv ht =>
    refine .inr ?_
    rw [← length_values, ← length_values, ht.values, hv]
    simp
  | jump _ _ _ ht | branchPassed _ _ _ ht | halt _ ht =>
    refine .inr ?_
    rw [← length_values, ← length_values, ht.values]

theorem pushes_iff (free : m.limit = 0) :
    m.Pushes ↔ ∃ t, m.attempt = (t, none) ∧ t.depth = m.depth + 1 := by
  constructor
  · intro push
    obtain ⟨v, step⟩ := step_of_pushes push (not_full_of_free free)
    exact ⟨_, attempt_of_step step, rfl⟩
  · rintro ⟨t, attempt, deeper⟩
    cases attempt ▸ m.attempted with
    | halted => omega
    | done running rule =>
      obtain ⟨push, -⟩ | le := depth_of_rule running rule
      · exact push
      · omega

/-- Only a bound makes a step overflow the stack. -/
theorem kind_ne_stackOverflow (free : m.limit = 0) (h : m.attempt.2 = some f) :
    f.kind ≠ .stackOverflow := by
  intro kind
  generalize ha : m.attempt = a at h
  cases ha ▸ m.attempted with
  | halted | done => cases h
  | fault _ rule =>
    cases h
    rw [kind] at rule
    cases rule with
    | pushFull _ full | duplicateFull _ _ _ full => exact not_full_of_free free full

theorem attempt_bounded_of_full (pos : 0 < n) (push : m.Pushes) (full : n ≤ m.depth) :
    ∃ f, (m.bounded n).attempt = (m.bounded n, some f) ∧ f.kind = .stackOverflow := by
  obtain ⟨f, step, kind⟩ :=
    step_of_pushes_full (pushes_bounded_iff.2 push) ((full_bounded_iff pos).2 full)
  exact ⟨f, attempt_of_fault step, kind⟩

theorem overflow_iff (pos : 0 < n) (free : m.limit = 0) :
    (∃ f, (m.bounded n).attempt.2 = some f ∧ f.kind = .stackOverflow) ↔
      m.Pushes ∧ n ≤ m.depth := by
  constructor
  · rintro ⟨f, fault, kind⟩
    by_contra room
    rw [attempt_bounded pos free room] at fault
    exact kind_ne_stackOverflow free fault kind
  · rintro ⟨push, full⟩
    obtain ⟨f, attempt, kind⟩ := attempt_bounded_of_full pos push full
    exact ⟨f, by rw [attempt], kind⟩

/-! ### Runs under a bound -/

theorem depth_attempt_le (bound : 0 < m.limit) : m.attempt.1.depth ≤ max m.limit m.depth := by
  generalize ha : m.attempt = a
  cases ha ▸ m.attempted with
  | halted | fault => exact le_max_right _ _
  | @done t running rule =>
    change t.depth ≤ max m.limit m.depth
    obtain ⟨-, room, deeper⟩ | le := depth_of_rule running rule
    · rw [Full, length_values] at room
      omega
    · exact le_max_of_le_right le

theorem depth_after_le (bound : 0 < m.limit) (k : Nat) :
    (m.after k).depth ≤ max m.limit m.depth := by
  induction k with
  | zero => exact le_max_right _ _
  | succ k ih =>
    have limit := (m.after_keeps k).2
    have step := depth_attempt_le (limit ▸ bound : 0 < (m.after k).limit)
    rw [after]
    omega

/-- Both machines go through the same states, until the bounded one is to push a value that it has
no room for. -/
theorem after_bounded (pos : 0 < n) (free : m.limit = 0) (k : Nat) :
    (m.bounded n).after k = (m.after k).bounded n ∨
      ∃ j < k, (m.bounded n).after k = (m.after j).bounded n ∧
        (m.after j).Pushes ∧ n ≤ (m.after j).depth := by
  induction k with
  | zero => exact .inl rfl
  | succ k ih =>
    obtain same | ⟨j, lt, stuck, push, full⟩ := ih
    · by_cases room : (m.after k).Pushes ∧ n ≤ (m.after k).depth
      · obtain ⟨f, attempt, -⟩ := attempt_bounded_of_full pos room.1 room.2
        exact .inr ⟨k, by omega, by rw [after, same, attempt], room⟩
      · refine .inl ?_
        have still := (m.after_keeps k).2.trans free
        rw [after, same, attempt_bounded pos still room]
        rfl
    · obtain ⟨f, attempt, -⟩ := attempt_bounded_of_full pos push full
      exact .inr ⟨j, by omega, by rw [after, stuck, attempt], push, full⟩

theorem depth_after_of_pushes (free : m.limit = 0) {k : Nat} (push : (m.after k).Pushes) :
    (m.after (k + 1)).depth = (m.after k).depth + 1 := by
  obtain ⟨t, attempt, deeper⟩ := (pushes_iff ((m.after_keeps k).2.trans free)).1 push
  rw [after, attempt, deeper]

/-- A run without a bound that stays within it is the run under the bound. -/
theorem attempt_after_bounded (pos : 0 < n) (free : m.limit = 0) {k : Nat}
    (within : ∀ j ≤ k + 1, (m.after j).depth ≤ n) :
    ((m.bounded n).after k).attempt = ((m.after k).attempt.1.bounded n, (m.after k).attempt.2) := by
  obtain same | ⟨j, lt, -, push, full⟩ := after_bounded pos free k
  · rw [same]
    refine attempt_bounded pos ((m.after_keeps k).2.trans free) ?_
    rintro ⟨push, full⟩
    have deeper := depth_after_of_pushes free push
    have := within (k + 1) le_rfl
    omega
  · have deeper := depth_after_of_pushes free push
    have := within (j + 1) (by omega)
    omega

end Machine

def Progress.bounded {σ : Type} (p : Progress σ) (maxStack : Int) : Progress σ :=
  { p with machine := p.machine.bounded maxStack }

def Outcome.bounded {σ : Type} (o : Outcome σ) (maxStack : Int) : Outcome σ :=
  { o with machine := o.machine.bounded maxStack }

namespace Runner

variable {σ : Type} {r : Runner σ} {p : Progress σ} {o : Outcome σ} {n : Int} {fuel : Nat}

/-- An attempt of a run that leaves no more values than the bound allows does not show the bound. -/
theorem advance_bounded (pos : 0 < n) (free : p.machine.limit = 0)
    (within : ∀ q, r.advance p = (q, none) → q.machine.depth ≤ n) :
    r.advance (p.bounded n) = ((r.advance p).1.bounded n, (r.advance p).2) := by
  cases halted : p.machine.halted with
  | true => simp [advance, Progress.bounded, halted]
  | false =>
    cases live : r.cancelled p.watch with
    | true => simp [advance, Progress.bounded, halted, live]
    | false =>
      cases spent : r.isSpent p.steps with
      | true => simp [advance, Progress.bounded, halted, live, spent]
      | false =>
        have room : ¬ (p.machine.Pushes ∧ n ≤ p.machine.depth) := by
          rintro ⟨push, full⟩
          obtain ⟨v, step⟩ := Machine.step_of_pushes push (Machine.not_full_of_free free)
          have deeper : ((p.machine.depth + 1 : Nat) : Int) ≤ n :=
            within _ (advance_of_step halted live spent step)
          omega
        have attempt := Machine.attempt_bounded pos free room
        simp only [advance, Progress.bounded, Machine.halted_bounded, halted, live, spent, attempt]
        rcases p.machine.attempt with ⟨t, _ | f⟩ <;> rfl

theorem steps_le_of_proceed (h : r.proceed fuel p = some o) : p.steps ≤ o.steps := by
  obtain ⟨unended, -⟩ | ⟨o', ended, k, -, q, leads, last⟩ := r.proceed_cases fuel p
  · simp [unended] at h
  · obtain rfl : o' = o := Option.some.inj (ended.symm.trans h)
    have steps : o'.steps = p.steps + k := last.of_stop.2.trans leads.advances.2
    omega

/-- A run that never holds more values than the bound allows ends in the same way under it. -/
theorem proceed_bounded (pos : 0 < n) (free : p.machine.limit = 0)
    (h : r.proceed fuel p = some o)
    (within : ∀ k, p.steps + k ≤ o.steps → (p.machine.after k).depth ≤ n) :
    r.proceed fuel (p.bounded n) = some (o.bounded n) := by
  induction fuel generalizing p with
  | zero => cases h
  | succ fuel ih =>
    unfold proceed at h ⊢
    rcases ha : r.advance p with ⟨q, _ | stop⟩
    · simp only [ha] at h
      have first : r.Leads p 1 q := .next .refl ha
      have steps : q.steps = p.steps + 1 := first.advances.2
      have less := steps_le_of_proceed h
      have small : ∀ q', r.advance p = (q', none) → q'.machine.depth ≤ n := by
        intro q' ha'
        obtain rfl : q = q' := congrArg Prod.fst (ha.symm.trans ha')
        rw [first.machine]
        exact within 1 (by omega)
      simp only [advance_bounded pos free small, ha]
      refine ih ?_ h fun k le => ?_
      · rw [first.machine]
        exact (p.machine.after_keeps 1).2.trans free
      · rw [first.machine, ← Machine.after_add]
        exact within (1 + k) (by omega)
    · have small : ∀ q', r.advance p = (q', none) → q'.machine.depth ≤ n := by simp [ha]
      simp only [advance_bounded pos free small, ha]
      simp only [ha] at h
      cases h
      rfl

theorem run_bounded {m : Machine} {watch : σ} {log : Log} (pos : 0 < n) (free : m.limit = 0)
    (h : r.run fuel m watch log = some o) (within : ∀ k ≤ o.steps, (m.after k).depth ≤ n) :
    r.run fuel (m.bounded n) watch log = some (o.bounded n) := by
  unfold run at h ⊢
  obtain ⟨e, he, rfl⟩ := Option.map_eq_some_iff.1 h
  have ended := proceed_bounded pos free he fun k le => within k (by simpa using le)
  exact Option.map_eq_some_iff.2 ⟨_, ended, rfl⟩

end Runner

namespace Machine

theorem empty_eq_bounded (n : Int) : empty n = (empty 0).bounded n := rfl

theorem restore_eq_bounded (s : Snapshot) (n : Int) : restore s n = (restore s 0).bounded n := rfl

theorem bounded_of_nonpos {m : Machine} {n : Int} (free : m.limit = 0) (nonpos : n ≤ 0) :
    m.bounded n = m := by
  cases m
  cases free
  simp [bounded, nonpos]

/-- A machine under a bound and the same machine without one take the same steps, except that the
bounded one overflows where the other pushes a value past the bound. So the bounded machine holds at
most as many values as the bound allows or as it started with, and a run that stays within the bound
is the same without it. A bound that is not positive is none. -/
theorem bounded_in_lock_step (m : Machine) (free : m.limit = 0) (n : Int) (pos : 0 < n) :
    (m.Pushes ↔ ∃ t, m.attempt = (t, none) ∧ t.depth = m.depth + 1) ∧
    ((∃ f, (m.bounded n).attempt.2 = some f ∧ f.kind = .stackOverflow) ↔
      m.Pushes ∧ n ≤ m.depth) ∧
    (¬ (m.Pushes ∧ n ≤ m.depth) → (m.bounded n).attempt = (m.attempt.1.bounded n, m.attempt.2)) ∧
    (∀ k, (m.bounded n).after k = (m.after k).bounded n ∨
      ∃ j < k, (m.bounded n).after k = (m.after j).bounded n ∧
        (m.after j).Pushes ∧ n ≤ (m.after j).depth) ∧
    (∀ k, ((m.bounded n).after k).depth ≤ max n m.depth) ∧
    (∀ k, (∀ j ≤ k + 1, (m.after j).depth ≤ n) → ((m.bounded n).after k).attempt =
      ((m.after k).attempt.1.bounded n, (m.after k).attempt.2)) ∧
    (∀ (σ : Type) (r : Runner σ) fuel watch log o, r.run fuel m watch log = some o →
      (∀ k ≤ o.steps, (m.after k).depth ≤ n) →
      r.run fuel (m.bounded n) watch log = some (o.bounded n)) ∧
    (∀ k ≤ 0, m.bounded k = m) ∧
    ∀ k, empty k = (empty 0).bounded k ∧ ∀ s, restore s k = (restore s 0).bounded k := by
  refine ⟨pushes_iff free, overflow_iff pos free, attempt_bounded pos free, after_bounded pos free,
    ?_, ?_, ?_, ?_, ?_⟩
  · intro k
    have bound : 0 < (m.bounded n).limit := by
      rw [limit_bounded]
      omega
    have le := depth_after_le bound k
    rw [limit_bounded, depth_bounded] at le
    omega
  · intro k within
    exact attempt_after_bounded pos free within
  · intro σ r fuel watch log o run within
    exact Runner.run_bounded pos free run within
  · intro k nonpos
    exact bounded_of_nonpos free nonpos
  · intro k
    exact ⟨empty_eq_bounded k, fun s => restore_eq_bounded s k⟩

/-- A stack that is deeper than the bound from the start does not grow. -/
theorem bounded_in_lock_step_deep :
    let m : Machine := { stack := [1, 2, 3], program := some [.push 7] }
    m.limit = 0 ∧ (∃ f, (m.bounded 2).attempt.2 = some f ∧ f.kind = .stackOverflow) ∧
      ∀ k, ((m.bounded 2).after k).depth ≤ max 2 (m.depth : Int) := by
  intro m
  obtain ⟨-, overflow, -, -, depth, -⟩ := bounded_in_lock_step m rfl 2 (by decide)
  have push : m.Pushes := ⟨rfl, .push 7, ⟨0, rfl, rfl⟩, .inl rfl⟩
  exact ⟨rfl, overflow.2 ⟨push, by decide⟩, depth⟩

end Machine

end StackMachine
