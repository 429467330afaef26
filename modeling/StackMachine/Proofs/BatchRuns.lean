import StackMachine.Command.Batch
import StackMachine.Proofs.RunLoop
import StackMachine.Proofs.TreeChanges

/-!
# Batch runs and their files

How a batch run ends, and what it leaves in the tree, in terms of its files alone. `Batch.Course` is
all that a batch run can do; the exit code, the failure and the changes of the tree are read off it.
The machine in which a run ends is the one at the first reason to stop, which `Batch.Ends` gives
without the loop that looks for it.
-/

namespace StackMachine.Batch

open StackMachine.FileTree (Changes Received changes_write)
open StackMachine.Path (place IsOnWay)

variable {o : Options} {c : Config} {threshold : Threshold} {cancelled : Nat → Bool} {fuel : Nat}
  {t u : FileTree} {p : Program} {m : Machine} {k n : Nat} {stop stop' : Stop} {log : Log}

/-! ### The end of a run -/

/-- The reasons to stop after `n` steps, in the order in which they count. -/
inductive Reason (c : Config) (cancelled : Nat → Bool) (m : Machine) (n : Nat) : Stop → Prop where
  | halted : (m.after n).halted = true → Reason c cancelled m n .halted
  | cancelled : (m.after n).halted = false → cancelled n = true → Reason c cancelled m n .cancelled
  | limit : (m.after n).halted = false → cancelled n = false → 0 < c.stepLimit →
      c.stepLimit ≤ n → Reason c cancelled m n .limitReached
  | fault {f : Fault} : (m.after n).halted = false → cancelled n = false →
      (0 < c.stepLimit → n < c.stepLimit) → (m.after n).step = .error f →
      Reason c cancelled m n (.faulted f)

/-- The machine `m` runs for `n` steps, after which there is a reason to stop for the first time. -/
structure Ends (c : Config) (cancelled : Nat → Bool) (m : Machine) (n : Nat) (stop : Stop) :
    Prop where
  reason : Reason c cancelled m n stop
  first : ∀ k < n, ∀ s, ¬ Reason c cancelled m k s

theorem Reason.unique (h : Reason c cancelled m n stop) (h' : Reason c cancelled m n stop') :
    stop = stop' := by
  cases h <;> cases h' <;> grind

theorem Ends.unique (h : Ends c cancelled m n stop) (h' : Ends c cancelled m k stop') :
    n = k ∧ stop = stop' := by
  obtain lt | rfl | gt := Nat.lt_trichotomy n k
  · exact absurd h.reason (h'.first n lt stop)
  · exact ⟨rfl, h.reason.unique h'.reason⟩
  · exact absurd h'.reason (h.first k gt stop')

theorem Ends.halted_iff (h : Ends c cancelled m n stop) :
    (m.after n).halted = true ↔ stop = .halted := by
  cases h.reason <;> simp [*]

section Leads

variable {q e : Progress Nat}

/-- Where the run of the machine `m` stands after `n` steps. -/
structure Stands (m : Machine) (n : Nat) (q : Progress Nat) : Prop where
  machine : q.machine = m.after n
  steps : q.steps = n
  /-- The observer counts the steps. -/
  watch : q.watch = n

theorem stands_of_leads (leads : (runner c threshold cancelled).Leads
    ((runner c threshold cancelled).start m 0 log) n q) : Stands m n q := by
  refine ⟨leads.machine, leads.advances.2.trans (Nat.zero_add n), ?_⟩
  have count (seen : List Observation) (w : Nat) :
      seen.foldl (runner c threshold cancelled).tell w = w + seen.length := by
    induction seen generalizing w with
    | nil => rfl
    | cons o seen ih =>
      rw [List.foldl_cons, ih, List.length_cons, Nat.add_comm seen.length, ← Nat.add_assoc]
      rfl
  rw [leads.watch_eq, count, leads.length_sightings]
  exact Nat.zero_add n

theorem lt_allowance_iff : n < (runner c threshold cancelled).allowance ↔
    (0 < c.stepLimit → n < c.stepLimit) :=
  Runner.lt_allowance_iff

theorem Stands.reason (h : Stands m n q)
    (last : (runner c threshold cancelled).Attempt q (e, some stop)) :
    Reason c cancelled m n stop := by
  obtain ⟨machine, steps, watch⟩ := h
  subst steps
  cases last with
  | halted halted => exact .halted (machine ▸ halted)
  | cancelled running stopped => exact .cancelled (machine ▸ running) (watch ▸ stopped)
  | spent running live spent =>
    rw [← not_lt, lt_allowance_iff] at spent
    exact .limit (machine ▸ running) (watch ▸ live) (by omega) (by omega)
  | fault running live few step =>
    exact .fault (machine ▸ running) (watch ▸ live) (lt_allowance_iff.1 few) (machine ▸ step)

/-- An attempt that does not stop the run finds no reason to. -/
theorem Stands.no_reason (h : Stands m n q)
    (last : (runner c threshold cancelled).Attempt q (e, none)) :
    ∀ s, ¬ Reason c cancelled m n s := by
  obtain ⟨machine, steps, watch⟩ := h
  subst steps
  cases last with
  | step running live few step =>
    replace running : (m.after q.steps).halted = false := machine ▸ running
    replace live : cancelled q.steps = false := watch ▸ live
    replace few := lt_allowance_iff.1 few
    replace step := machine ▸ step
    intro s reason
    cases reason with
    | halted halted => simp [running] at halted
    | cancelled _ stopped => simp [live] at stopped
    | limit _ _ limited spent => exact absurd (few limited) (by omega)
    | fault _ _ _ fault => simp [step] at fault

theorem no_reason_of_leads (leads : (runner c threshold cancelled).Leads
    ((runner c threshold cancelled).start m 0 log) n q) :
    ∀ k < n, ∀ s, ¬ Reason c cancelled m k s := by
  induction leads with
  | refl => exact nofun
  | @next n q e before last ih =>
    intro k lt
    obtain earlier | rfl : k < n ∨ k = n := by omega
    · exact ih k earlier
    · exact (stands_of_leads before).no_reason (Runner.advance_eq_iff.1 last)

end Leads

theorem ends_of_run {out : Outcome Nat}
    (h : (runner c threshold cancelled).run fuel m 0 log = some out) :
    Ends c cancelled m out.steps out.stop ∧ out.machine = m.after out.steps := by
  obtain ⟨e, q, rfl, leads, last⟩ := Runner.exists_of_run h
  have stands := stands_of_leads leads
  exact ⟨⟨stands.reason last, no_reason_of_leads leads⟩, last.of_stop.1.trans stands.machine⟩

/-- A run ends if there is a reason to stop somewhere. -/
theorem Ends.exists_run (h : Ends c cancelled m n stop) (threshold : Threshold) (log : Log) :
    ∃ out, (runner c threshold cancelled).run (n + 1) m 0 log = some out := by
  let r := runner c threshold cancelled
  obtain ⟨-, q, leads⟩ | ⟨out, ended, -⟩ := r.proceed_cases (r.attempts (n + 1)) (r.start m 0 log)
  · have attempts : r.attempts (n + 1) =
        if 0 < c.stepLimit then c.stepLimit.toNat + 1 else n + 1 := rfl
    rw [attempts] at leads
    split at leads
    next limited =>
      have within := leads.within (by simp [r, Runner.start])
      rw [(stands_of_leads leads).steps, Runner.le_allowance_iff] at within
      have le : ((c.stepLimit.toNat + 1 : Nat) : Int) ≤ c.stepLimit := within limited
      omega
    · exact absurd h.reason (no_reason_of_leads leads n (Nat.lt_succ_self n) stop)
  · exact ⟨_, by rw [Runner.run_eq, ended]; rfl⟩

/-- The program is run under the configuration and ends in the machine `m`. -/
def EndsIn (c : Config) (cancelled : Nat → Bool) (p : Program) (m : Machine) : Prop :=
  ∃ n stop, Ends c cancelled (c.machine (some p)) n stop ∧ m = (c.machine (some p)).after n

theorem EndsIn.unique {m' : Machine} (h : EndsIn c cancelled p m) (h' : EndsIn c cancelled p m') :
    m = m' := by
  obtain ⟨n, stop, ends, rfl⟩ := h
  obtain ⟨n', stop', ends', rfl⟩ := h'
  rw [(ends.unique ends').1]

/-! ### Courses -/

/-- All that a batch run can do: its exit code, its failure and the tree that it leaves. -/
inductive Course (o : Options) (c : Config) (cancelled : Nat → Bool) (t : FileTree) :
    Nat → Option Failure → FileTree → Prop where
  | unloaded {f : Failure} : load o c t = .error f → Course o c cancelled t 1 (some f) t
  | unsaved {p : Program} {u : FileTree} {f : Failure} : load o c t = .ok p →
      save o c p t = (u, some f) → Course o c cancelled t 1 (some f) u
  | listed {p : Program} {u : FileTree} : load o c t = .ok p → save o c p t = (u, none) →
      o.disassemble = true → Course o c cancelled t 0 none u
  | finished {p : Program} {u v : FileTree} {m : Machine} : load o c t = .ok p →
      save o c p t = (u, none) → o.disassemble = false → EndsIn c cancelled p m →
      store o m u = (v, none) → Course o c cancelled t (if m.halted then 0 else 1) none v
  | unstored {p : Program} {u v : FileTree} {m : Machine} {f : Failure} : load o c t = .ok p →
      save o c p t = (u, none) → o.disassemble = false → EndsIn c cancelled p m →
      store o m u = (v, some f) → Course o c cancelled t 1 (some f) v

theorem course_of_runProgram {r : Report} (loaded : load o c t = .ok p)
    (saved : save o c p t = (u, none)) (running : o.disassemble = false)
    (h : runProgram o c threshold cancelled fuel p u log = some r) :
    Course o c cancelled t r.code r.failure r.tree := by
  obtain ⟨out, ended, rfl⟩ := Option.map_eq_some_iff.1 h
  obtain ⟨ends, machine⟩ := ends_of_run ended
  have final : EndsIn c cancelled p out.machine := ⟨_, _, ends, machine⟩
  have code : (if out.stop = .halted then 0 else 1) = if out.machine.halted then 0 else 1 := by
    simp only [machine, ends.halted_iff]
  rcases stored : store o out.machine u with ⟨v, _ | f⟩
  · simp only [code]
    exact .finished loaded saved running final stored
  · exact .unstored loaded saved running final stored

/-- A batch run that ends takes one of the courses. -/
theorem course_of_run {r : Report} (h : runUnless o c threshold cancelled fuel t = some r) :
    Course o c cancelled t r.code r.failure r.tree := by
  unfold runUnless at h
  cases loaded : load o c t with
  | error f =>
    obtain rfl := Option.some.inj (by simpa only [loaded] using h)
    exact .unloaded loaded
  | ok p =>
    rcases saved : save o c p t with ⟨u, _ | f⟩
    · simp only [loaded, saved] at h
      cases listed : o.disassemble with
      | true =>
        obtain rfl := Option.some.inj (by simpa only [listed, if_true] using h)
        exact .listed loaded saved listed
      | false => exact course_of_runProgram loaded saved listed (by simpa [listed] using h)
    · obtain rfl := Option.some.inj (by simpa only [loaded, saved] using h)
      exact .unsaved loaded saved

section Course

variable {code : Nat} {failure : Option Failure} {f : Failure} {v : FileTree}

/-- The course of a batch run whose program could be loaded and saved. -/
theorem Course.of_saved (h : Course o c cancelled t code failure v) (loaded : load o c t = .ok p)
    (saved : save o c p t = (u, none)) :
    (o.disassemble = true ∧ v = u) ∨
      (o.disassemble = false ∧ ∃ m, EndsIn c cancelled p m ∧ store o m u = (v, failure)) := by
  cases h with
  | unloaded loaded' => simp [loaded] at loaded'
  | unsaved loaded' saved' =>
    obtain rfl := Except.ok.inj (loaded.symm.trans loaded')
    simp [saved] at saved'
  | listed loaded' saved' listed =>
    obtain rfl := Except.ok.inj (loaded.symm.trans loaded')
    obtain ⟨rfl, -⟩ := Prod.mk.inj (saved.symm.trans saved')
    exact .inl ⟨listed, rfl⟩
  | finished loaded' saved' running ends stored | unstored loaded' saved' running ends stored =>
    obtain rfl := Except.ok.inj (loaded.symm.trans loaded')
    obtain ⟨rfl, -⟩ := Prod.mk.inj (saved.symm.trans saved')
    exact .inr ⟨running, _, ends, stored⟩

theorem Course.tree_of_unloaded (h : Course o c cancelled t code failure v)
    (unloaded : load o c t = .error f) : v = t := by
  cases h with
  | unloaded => rfl
  | unsaved loaded | listed loaded | finished loaded | unstored loaded => simp [unloaded] at loaded

/-- A batch run ends if the run of its program does, or if there is none. -/
theorem exists_run_iff : (∃ fuel, (runUnless o c threshold cancelled fuel t).isSome) ↔
    ∀ p u, load o c t = .ok p → save o c p t = (u, none) → o.disassemble = false →
      ∃ m, EndsIn c cancelled p m := by
  constructor
  · rintro ⟨fuel, ended⟩ p u loaded saved running
    obtain ⟨r, ended⟩ := Option.isSome_iff_exists.1 ended
    obtain ⟨listed, -⟩ | ⟨-, m, ends, -⟩ := (course_of_run ended).of_saved loaded saved
    · simp [running] at listed
    · exact ⟨m, ends⟩
  · intro h
    cases loaded : load o c t with
    | error f => exact ⟨0, by simp [runUnless, loaded]⟩
    | ok p =>
      rcases saved : save o c p t with ⟨u, _ | f⟩
      · cases listed : o.disassemble with
        | true => exact ⟨0, by simp [runUnless, loaded, saved, listed]⟩
        | false =>
          obtain ⟨-, n, stop, ends, -⟩ := h p u loaded saved listed
          have ended (log : Log) :
              ((runner c threshold cancelled).run (n + 1) (c.machine (some p)) 0 log).isSome :=
            Option.isSome_iff_exists.2 (ends.exists_run threshold log)
          exact ⟨n + 1, by simp [runUnless, loaded, saved, listed, runProgram, ended]⟩
      · exact ⟨0, by simp [runUnless, loaded, saved]⟩

/-! ### Exit codes and failures -/

theorem Course.code_eq (h : Course o c cancelled t code failure v) :
    (code = 0 ↔ failure = none ∧ (o.disassemble = true ∨
      ∃ p m, load o c t = .ok p ∧ EndsIn c cancelled p m ∧ m.halted = true)) ∧
    (code ≠ 0 → code = 1) := by
  cases h with
  | unloaded | unsaved | unstored => simp
  | listed _ _ listed => simp [listed]
  | @finished p u v m loaded _ running ends _ =>
    have final : (∃ p m, load o c t = .ok p ∧ EndsIn c cancelled p m ∧ m.halted = true) ↔
        m.halted = true := by
      constructor
      · rintro ⟨p', m', loaded', ends', halted⟩
        obtain rfl := Except.ok.inj (loaded.symm.trans loaded')
        rwa [ends.unique ends']
      · exact fun halted => ⟨p, m, loaded, ends, halted⟩
    rw [final]
    cases halted : m.halted <;> simp [running]

/-- What can go wrong with the files of a batch run. -/
inductive Fails (o : Options) (c : Config) (cancelled : Nat → Bool) (t : FileTree) :
    Failure → Prop where
  | input {f : Failure} : load o c t = .error f → Fails o c cancelled t f
  | output {p : Program} {u : FileTree} {f : Failure} : load o c t = .ok p →
      save o c p t = (u, some f) → Fails o c cancelled t f
  | state {p : Program} {u v : FileTree} {m : Machine} {f : Failure} : load o c t = .ok p →
      save o c p t = (u, none) → o.disassemble = false → EndsIn c cancelled p m →
      store o m u = (v, some f) → Fails o c cancelled t f

theorem Course.failure_eq_some_iff (h : Course o c cancelled t code failure v) :
    failure = some f ↔ Fails o c cancelled t f := by
  constructor
  · rintro rfl
    cases h with
    | unloaded unloaded => exact .input unloaded
    | unsaved loaded unsaved => exact .output loaded unsaved
    | unstored loaded saved running ends unstored =>
      exact .state loaded saved running ends unstored
  · intro fails
    cases fails with
    | input unloaded =>
      cases h with
      | unloaded unloaded' => rw [Except.error.inj (unloaded'.symm.trans unloaded)]
      | unsaved loaded | listed loaded | finished loaded | unstored loaded =>
        simp [unloaded] at loaded
    | output loaded unsaved =>
      cases h with
      | unloaded unloaded => simp [loaded] at unloaded
      | unsaved loaded' unsaved' =>
        obtain rfl := Except.ok.inj (loaded.symm.trans loaded')
        exact congrArg Prod.snd (unsaved'.symm.trans unsaved)
      | listed loaded' saved | finished loaded' saved | unstored loaded' saved =>
        obtain rfl := Except.ok.inj (loaded.symm.trans loaded')
        simp [unsaved] at saved
    | state loaded saved running ends unstored =>
      obtain ⟨listed, -⟩ | ⟨-, m, ends', stored⟩ := h.of_saved loaded saved
      · simp [running] at listed
      · -- the state that could not be stored is that of the one machine in which a run ends
        obtain rfl := ends.unique ends'
        exact congrArg Prod.snd (stored.symm.trans unstored)

/-! ### Changes of the tree -/

def Options.StoresState (o : Options) : Prop := o.state ≠ "" ∧ o.disassemble = false

theorem changes_save (wf : t.WellFormed) (h : save o c p t = (u, failure)) :
    Changes (fun q => o.output ≠ "" ∧ IsOnWay t.here o.output q)
      (fun q => o.output ≠ "" ∧ q = place t.here o.output) t u := by
  unfold save at h
  split at h
  · obtain rfl := (Prod.mk.inj h).1
    exact .refl t
  next wanted =>
    cases failure with
    | none =>
      exact (wf.changes_saveProgram h).mono (fun q along => ⟨wanted, along⟩)
        fun q same => ⟨wanted, same⟩
    | some f =>
      exact (wf.changes_saveProgram_failed h).mono (fun q along => ⟨wanted, along⟩) fun q => id

theorem changes_store {dirs : Place → Prop} (h : store o m u = (v, failure)) :
    Changes dirs (fun q => o.state ≠ "" ∧ failure = none ∧ q = place u.here o.state) u v := by
  unfold store at h
  split at h
  · obtain rfl := (Prod.mk.inj h).1
    exact .refl u
  next wanted =>
    unfold FileTree.saveSnapshot at h
    split at h
    next written =>
      obtain ⟨rfl, rfl⟩ := Prod.mk.inj h
      exact (changes_write written).mono (fun _ => id) fun q same => ⟨wanted, rfl, same⟩
    · obtain rfl := (Prod.mk.inj h).1
      exact .refl u

/-- Once the program is saved, only the state of the machine is written. -/
theorem Course.changes_of_saved {dirs : Place → Prop} (wf : t.WellFormed)
    (h : Course o c cancelled t code failure v) (loaded : load o c t = .ok p)
    (saved : save o c p t = (u, none)) :
    Changes dirs (fun q => o.StoresState ∧ failure = none ∧ q = place t.here o.state) u v := by
  obtain ⟨-, rfl⟩ | ⟨running, m, -, stored⟩ := h.of_saved loaded saved
  · exact .refl v
  · rw [← (changes_save wf saved).here]
    refine (changes_store stored).mono (fun _ => id) ?_
    rintro q ⟨wanted, success, same⟩
    exact ⟨⟨wanted, running⟩, success, same⟩

theorem Course.changes (wf : t.WellFormed) (h : Course o c cancelled t code failure v) :
    Changes (fun q => o.output ≠ "" ∧ IsOnWay t.here o.output q)
      (fun q => o.output ≠ "" ∧ q = place t.here o.output ∨
        o.StoresState ∧ failure = none ∧ q = place t.here o.state) t v := by
  by_cases success : ∃ p u, load o c t = .ok p ∧ save o c p t = (u, none)
  · obtain ⟨p, u, loaded, saved⟩ := success
    exact ((changes_save wf saved).mono (fun _ => id) fun _ => .inl).trans
      ((h.changes_of_saved wf loaded saved).mono (fun _ => id) fun _ => .inr)
  · cases h with
    | unloaded => exact .refl t
    | unsaved _ unsaved => exact (changes_save wf unsaved).mono (fun _ => id) fun _ => .inl
    | listed loaded saved | finished loaded saved | unstored loaded saved =>
      exact absurd ⟨_, _, loaded, saved⟩ success

/-! ### What the files hold -/

theorem mode_eq_truncate_iff : mode o c = .truncate ↔ o.truncate = true ∨ c.mode = .truncate := by
  unfold mode
  split <;> simp [*]

/-- The encoded program stays in its file, unless the state of the machine is stored there. -/
theorem Course.output (wf : t.WellFormed) (h : Course o c cancelled t code failure v)
    (loaded : load o c t = .ok p) (saved : save o c p t = (u, none)) (wanted : o.output ≠ "")
    (apart : o.StoresState → failure = none → place t.here o.output ≠ place t.here o.state) :
    ∃ d, p.encode = .ok d ∧
      Received t o.output (o.truncate = true ∨ c.mode = .truncate) d v := by
  have later : Changes (fun _ => False)
      (fun q => o.StoresState ∧ failure = none ∧ q = place t.here o.state) u v :=
    h.changes_of_saved wf loaded saved
  have here := (changes_save wf saved).here
  rw [save, if_neg wanted] at saved
  obtain ⟨d, encoded, received⟩ := wf.received saved
  rw [mode_eq_truncate_iff] at received
  refine ⟨d, encoded, received.later fun content found => later.read found ?_⟩
  rw [here]
  exact fun ⟨stores, success, same⟩ => apart stores success same

theorem Course.state (h : Course o c cancelled t code failure v) (loaded : load o c t = .ok p)
    (saved : save o c p t = (u, none)) (wanted : o.StoresState) :
    ∃ m, EndsIn c cancelled p m ∧
      (failure = none → v.read o.state = .ok m.snapshot.encode) := by
  obtain ⟨listed, -⟩ | ⟨-, m, ends, stored⟩ := h.of_saved loaded saved
  · simp [wanted.2] at listed
  · refine ⟨m, ends, ?_⟩
    rintro rfl
    rw [store, if_neg wanted.1, FileTree.saveSnapshot] at stored
    cases written : u.write o.state false m.snapshot.encode with
    | error f => simp [written] at stored
    | ok w =>
      obtain rfl : w = v := by simpa [written] using stored
      exact FileTree.read_write_replace written

end Course

/-- A batch run ends if its program does, and has then the exit code zero if nothing failed and the
program was only listed or has halted, and one otherwise. It fails only if it cannot read its input,
save its output or store the state of the machine. Nothing changes but those two files and new
directories on the way to the first, and nothing at all if there is no program. However the program
ends, the output holds it, unless the state is stored in its place, and the state is that of the
machine in the end. -/
theorem run_touches_only_its_files (o : Options) (c : Config) (threshold : Threshold)
    (cancelled : Nat → Bool) (t : FileTree) (wf : t.WellFormed) :
    ((∃ fuel, (runUnless o c threshold cancelled fuel t).isSome) ↔
      ∀ p u, load o c t = .ok p → save o c p t = (u, none) → o.disassemble = false →
        ∃ m, EndsIn c cancelled p m) ∧
    ∀ fuel r, runUnless o c threshold cancelled fuel t = some r →
      (r.code = 0 ↔ r.failure = none ∧ (o.disassemble = true ∨
        ∃ p m, load o c t = .ok p ∧ EndsIn c cancelled p m ∧ m.halted = true)) ∧
      (r.code ≠ 0 → r.code = 1) ∧
      (∀ f, r.failure = some f ↔ Fails o c cancelled t f) ∧
      Changes (fun q => o.output ≠ "" ∧ IsOnWay t.here o.output q)
        (fun q => o.output ≠ "" ∧ q = place t.here o.output ∨
          o.StoresState ∧ r.failure = none ∧ q = place t.here o.state) t r.tree ∧
      (∀ f, load o c t = .error f → r.tree = t) ∧
      ∀ p u, load o c t = .ok p → save o c p t = (u, none) →
        (o.output ≠ "" →
          (o.StoresState → r.failure = none → place t.here o.output ≠ place t.here o.state) →
          ∃ d, p.encode = .ok d ∧
            Received t o.output (o.truncate = true ∨ c.mode = .truncate) d r.tree) ∧
        (o.StoresState → ∃ m, EndsIn c cancelled p m ∧
          (r.failure = none → r.tree.read o.state = .ok m.snapshot.encode)) := by
  refine ⟨exists_run_iff, fun fuel r ended => ?_⟩
  have course := course_of_run ended
  refine ⟨course.code_eq.1, course.code_eq.2, fun f => course.failure_eq_some_iff,
    course.changes wf, fun f unloaded => ?_, fun p u loaded saved => ⟨?_, ?_⟩⟩
  · exact course.tree_of_unloaded unloaded
  · exact course.output wf loaded saved
  · exact course.state loaded saved

/-- A program that divides by zero in its third step, and is saved to where it was loaded from. -/
theorem run_divides_by_zero :
    let p : Program := [.push 1, .push 0, .divide]
    let d : List UInt8 :=
      [0x53, 0x56, 0x4D, 0x42, 1, 0, 3, 0, 1, 0, 0, 0, 0, 0, 0, 0, 0, 5, 0, 0, 0, 0]
    let t : FileTree := { nodes := [(["p"], .file d)] }
    let o : Options := { input := "p", output := "./p", state := "s" }
    let m : Machine := { program := some p, stack := [0, 1], pc := 2 }
    t.WellFormed ∧ load o {} t = .ok p ∧ p.encode = .ok d ∧
      ∃ r, runUnless o {} none (fun _ => false) 3 t = some r ∧ r.code = 1 ∧ r.failure = none ∧
        r.tree.read "./p" = .ok (d ++ d) ∧ r.tree.read "s" = .ok m.snapshot.encode := by
  intro p d t o m
  have wf : t.WellFormed := by
    refine ⟨fun q part n found => ?_, rfl⟩
    have only : q ++ [part] = ["p"] := by
      by_contra other
      simp [t, FileTree.node?, List.lookup_cons, beq_eq_false_iff_ne.2 other] at found
    obtain rfl : q = [] := by simpa using congrArg List.dropLast only
    rfl
  have loaded : load o {} t = .ok p := by decide
  have encoded : p.encode = .ok d := by decide
  have saved : save o {} p t = ((save o {} p t).1, none) := Prod.ext rfl (by decide)
  have final : EndsIn {} (fun _ => false) p m := by
    have fault : (runner {} none fun _ => false).run 3 (Config.machine {} (some p)) 0 #[] =
      some ⟨⟨m, 2, 3, #[]⟩, .faulted ⟨2, some 5, .divisionByZero 1⟩⟩ := rfl
    exact ⟨2, _, (ends_of_run fault).1, (ends_of_run fault).2⟩
  have report : (runUnless o {} none (fun _ => false) 3 t).map (fun r => (r.code, r.failure)) =
      some (1, none) := by decide
  obtain ⟨r, ended, result⟩ := Option.map_eq_some_iff.1 report
  obtain ⟨code, success⟩ := Prod.mk.inj result
  obtain ⟨-, reports⟩ := run_touches_only_its_files o {} none (fun _ => false) t wf
  obtain ⟨-, -, -, -, -, holds⟩ := reports 3 r ended
  obtain ⟨output, state⟩ := holds p _ loaded saved
  obtain ⟨e, encoded', received⟩ := output (by decide) fun _ _ => by decide
  obtain ⟨m', ends, stored⟩ := state ⟨by decide, rfl⟩
  obtain rfl := Except.ok.inj (encoded.symm.trans encoded')
  obtain rfl := final.unique ends
  refine ⟨wf, loaded, encoded, r, ended, code, success, ?_, stored success⟩
  exact received.behind (by decide) d (by decide)

end StackMachine.Batch
