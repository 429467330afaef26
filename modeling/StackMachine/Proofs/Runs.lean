import Mathlib.Data.ENat.Basic
import StackMachine.Proofs.Faults
import StackMachine.Runner

/-!
# Runs as a relation

`Machine.Advances` counts the steps between two machines, and `Machine.Runs` says how far a run goes
that may take a number of steps, and why it stops there. A limit is an extended natural number, so
that a run without one is a run under `⊤`. Both relations leave no choice, and runs can be put
together and taken apart.
-/

namespace StackMachine

/-! ### Counted steps -/

namespace Machine

/-- `n` steps lead from `m` to `t`, each of them from a machine that has not halted. -/
inductive Advances : Machine → Nat → Machine → Prop where
  | refl (m : Machine) : Advances m 0 m
  | next {m u t : Machine} {n : Nat} : m.halted = false → m.step = .ok u → Advances u n t →
      Advances m (n + 1) t

variable {m u t t' : Machine} {i j n : Nat}

theorem Advances.trans (h : m.Advances i u) (h' : u.Advances j t) : m.Advances (i + j) t := by
  induction h with
  | refl m => rwa [Nat.zero_add]
  | next running step _ ih =>
    rw [Nat.add_right_comm]
    exact .next running step (ih h')

/-- Steps leave no choice: what goes further goes on from where the first steps lead. -/
theorem Advances.rest (h : m.Advances i u) (h' : m.Advances (i + j) t) : u.Advances j t := by
  induction h with
  | refl m => rwa [Nat.zero_add] at h'
  | next running step _ ih =>
    rw [Nat.add_right_comm] at h'
    cases h' with
    | next _ step' rest =>
      obtain rfl := Except.ok.inj (step.symm.trans step')
      exact ih rest

theorem Advances.unique (h : m.Advances n t) (h' : m.Advances n t') : t = t' := by
  cases h.rest (j := 0) h'
  rfl

theorem Advances.step_of_lt (h : m.Advances i u) (h' : m.Advances n t) (lt : i < n) :
    u.halted = false ∧ ∃ v, u.step = .ok v := by
  obtain ⟨j, rfl⟩ : ∃ j, n = i + (j + 1) := ⟨n - i - 1, by omega⟩
  cases h.rest h' with
  | next running step _ => exact ⟨running, _, step⟩

end Machine

/-! ### Reasons to stop -/

/-- A run that may take `limit` steps has this reason to stop at `t` after `s` steps. -/
def Stop.Due (limit : ℕ∞) (s : Nat) (t : Machine) : Stop → Prop
  | halted => t.halted = true
  | faulted f => t.halted = false ∧ s < limit ∧ t.step = .error f
  | limitReached => t.halted = false ∧ s = limit
  | cancelled => False

theorem Stop.Due.unique {limit : ℕ∞} {s : Nat} {t : Machine} {a b : Stop}
    (ha : a.Due limit s t) (hb : b.Due limit s t) : a = b := by
  cases a <;> cases b <;> simp_all [Due]

/-- A machine that can go on has only the limit to stop for. -/
theorem Stop.Due.of_step {limit : ℕ∞} {s : Nat} {t u : Machine} {stop : Stop}
    (due : stop.Due limit s t) (running : t.halted = false) (step : t.step = .ok u) :
    stop = .limitReached ∧ s = limit := by
  cases stop <;> simp_all [Due]

/-- Steps that were taken before do not matter if the limit allows them in addition. -/
theorem Stop.due_add_iff {limit : ℕ∞} {k s : Nat} {t : Machine} {stop : Stop} :
    stop.Due (k + limit) (k + s : Nat) t ↔ stop.Due limit s t := by
  cases stop <;> simp [Due]

/-! ### Runs -/

namespace Machine

/-- A run of `m` that may take `limit` steps takes `s` of them to `t` and has reason to stop. -/
structure Runs (m : Machine) (limit : ℕ∞) (s : Nat) (t : Machine) (stop : Stop) : Prop where
  advances : m.Advances s t
  within : s ≤ limit
  due : stop.Due limit s t

variable {m u t t' : Machine} {L : ℕ∞} {s n : Nat} {stop stop' : Stop}

/-- A run takes every step that it may. -/
theorem Runs.greatest (h : m.Runs L s t stop) (hn : n ≤ L) (h' : m.Advances n u) : n ≤ s := by
  by_contra lt
  obtain ⟨running, v, step⟩ := h.advances.step_of_lt h' (by omega)
  obtain ⟨-, spent⟩ := h.due.of_step running step
  rw [← spent] at hn
  exact lt (Nat.cast_le.1 hn)

theorem Runs.unique {s' : Nat} (h : m.Runs L s t stop) (h' : m.Runs L s' t' stop') :
    s' = s ∧ t' = t ∧ stop' = stop := by
  have le : s' ≤ s := h.greatest h'.within h'.advances
  have ge : s ≤ s' := h'.greatest h.within h.advances
  obtain rfl : s' = s := by omega
  obtain rfl := h'.advances.unique h.advances
  exact ⟨rfl, rfl, h'.due.unique h.due⟩

/-- Steps before a run count against a greater limit. -/
theorem Runs.prepend {k : Nat} (first : m.Advances k u) (h : u.Runs L s t stop) :
    m.Runs (k + L) (k + s) t stop := by
  refine ⟨first.trans h.advances, ?_, Stop.due_add_iff.2 h.due⟩
  rw [Nat.cast_add]
  exact add_le_add_right h.within _

/-- A run that is given `k` more steps goes on where the first `k` steps lead. -/
theorem Runs.rest {k : Nat} (first : m.Advances k u) (h : m.Runs (k + L) n t stop) :
    ∃ s, n = k + s ∧ u.Runs L s t stop := by
  obtain ⟨s, rfl⟩ := Nat.exists_eq_add_of_le (h.greatest le_self_add first)
  refine ⟨s, rfl, first.rest h.advances, ?_, Stop.due_add_iff.1 h.due⟩
  rw [← ENat.add_le_add_iff_left (ENat.natCast_ne_top k), ← Nat.cast_add]
  exact h.within

theorem exists_runs (L : Nat) (m : Machine) : ∃ s t stop, m.Runs L s t stop := by
  induction L generalizing m with
  | zero =>
    by_cases halted : m.halted
    · exact ⟨0, m, .halted, .refl m, le_rfl, halted⟩
    · exact ⟨0, m, .limitReached, .refl m, le_rfl, by simpa using halted, rfl⟩
  | succ L ih =>
    by_cases halted : m.halted
    · exact ⟨0, m, .halted, .refl m, by simp, halted⟩
    have running : m.halted = false := by simpa using halted
    cases step : m.step with
    | error f => exact ⟨0, m, .faulted f, .refl m, by simp, running, by simp, step⟩
    | ok u =>
      obtain ⟨s, t, stop, h⟩ := ih u
      refine ⟨1 + s, t, stop, ?_⟩
      rw [Nat.add_comm, Nat.cast_add]
      exact h.prepend (.next running step (.refl u))

/-- A run that halts does so under every limit that leaves room for its steps. -/
theorem Runs.of_halted {L' : ℕ∞} (h : m.Runs L s t .halted) (le : s ≤ L') :
    m.Runs L' s t .halted :=
  ⟨h.advances, le, h.due⟩

theorem Runs.of_faulted {L' : ℕ∞} {f : Fault} (h : m.Runs L s t (.faulted f)) (lt : s < L') :
    m.Runs L' s t (.faulted f) :=
  ⟨h.advances, lt.le, h.due.1, lt, h.due.2.2⟩

/-- Two runs in a row are one run under the sum of their limits. -/
theorem Runs.append {a b : ℕ∞} {s' : Nat} (h : m.Runs a s u stop) (h' : u.Runs b s' t stop')
    (pos : 0 < b) : m.Runs (a + b) (s + s') t stop' := by
  cases stop with
  | halted =>
    -- what has halted stays as it is
    have again : u.Runs b 0 u .halted := ⟨.refl u, by simp, h.due⟩
    obtain ⟨rfl, rfl, rfl⟩ := again.unique h'
    exact h.of_halted (h.within.trans le_self_add)
  | faulted f =>
    -- what has faulted faults again
    have again : u.Runs b 0 u (.faulted f) := ⟨.refl u, by simp, h.due.1, by simpa, h.due.2.2⟩
    obtain ⟨rfl, rfl, rfl⟩ := again.unique h'
    exact h.of_faulted (h.due.2.1.trans_le le_self_add)
  | limitReached =>
    obtain ⟨-, spent⟩ := h.due
    rw [← spent]
    exact h'.prepend h.advances
  | cancelled => exact h.due.elim

end Machine

end StackMachine
