import Mathlib.Algebra.Group.Nat.Defs
import Mathlib.Data.List.Induction
import StackMachine.Proofs.LineEndings
import StackMachine.Proofs.Opcodes

/-!
# Resolving labels

A source with labels is read once, with a table of labels and with slots for the jumps that wait for
one. What comes out is what two passes over the lines would give: one that finds the index of every
line, which is the number of instructions before it, and one that translates the lines, where a jump
to a label gets the index of the line that declares the label. The first line that is flawed by
itself or by an earlier line is reported; only if there is none, the first jump to a label that no
line declares.
-/

namespace StackMachine

theorem Opcode.ofMnemonic?_eq_some_iff {t : Text} {op : Opcode} :
    ofMnemonic? t = some op ↔ t = Text.ofString op.mnemonic := by
  constructor
  · intro h
    have found := List.find?_some h
    simpa using (of_decide_eq_true found).symm
  · rintro rfl
    exact ofMnemonic?_mnemonic op

namespace Assembly

variable {isStrict : Bool} {ls : List Text} {line name label : Text} {op : Opcode} {j k n : Nat}
  {e : Objection}

/-! ### What lines are -/

/-- Whether a line holds an instruction: it is neither blank nor a comment nor a declaration. -/
def isCode (line : Text) : Bool :=
  match line.trim with
  | [] => false
  | first :: _ => first ≠ .char '#' && first ≠ .char ':'

def Declares (line name : Text) : Prop := line.trim = .char ':' :: name

/-- The line is a jump whose only operand is a label. -/
structure Refers (line : Text) (op : Opcode) (label : Text) : Prop where
  code : isCode line = true
  tokens : line.trim.words = [Text.ofString op.mnemonic, label]
  jump : op = .jump ∨ op = .jumpIfTrue
  label : isLabel label = true

theorem Refers.eq_of_tokens {label' : Text} (h : Refers line op label)
    (tokens : line.trim.words = [name, label']) :
    Opcode.ofMnemonic? name = some op ∧ label' = label := by
  have same := h.tokens.symm.trans tokens
  simp only [List.cons.injEq, and_true] at same
  exact ⟨Opcode.ofMnemonic?_eq_some_iff.2 same.1.symm, same.2.symm⟩

theorem Refers.unique {op' : Opcode} {label' : Text} (h : Refers line op label)
    (h' : Refers line op' label') : op' = op ∧ label' = label := by
  obtain ⟨found, rfl⟩ := h.eq_of_tokens h'.tokens
  rw [Opcode.ofMnemonic?_mnemonic, Option.some.injEq] at found
  exact ⟨found, rfl⟩

inductive Reads (line : Text) : Statement → Prop where
  | nothing : isCode line = false → (∀ name, ¬ Declares line name) → Reads line .nothing
  | declaration {name : Text} : isCode line = false → Declares line name →
      Reads line (.declaration name)
  | jump {op : Opcode} {label : Text} : Refers line op label → Reads line (.jump op label)
  | instruction : isCode line = true → (∀ op label, ¬ Refers line op label) →
      Reads line (.instruction line.trim.words)

theorem reads_ofTokens (code : isCode line = true) : Reads line (.ofTokens line.trim.words) := by
  unfold Statement.ofTokens
  split
  next name label tokens =>
    split
    next op found =>
      split
      next jump =>
        simp only [Bool.and_eq_true, Bool.or_eq_true, decide_eq_true_eq] at jump
        have mnemonic := Opcode.ofMnemonic?_eq_some_iff.1 found
        exact .jump ⟨code, mnemonic ▸ tokens, jump.1, jump.2⟩
      next noJump =>
        refine .instruction code fun op' label' h => noJump ?_
        obtain ⟨found', rfl⟩ := h.eq_of_tokens tokens
        obtain rfl := Option.some.inj (found.symm.trans found')
        simpa [h.label] using h.jump
    next unknown =>
      refine .instruction code fun op' label' h => ?_
      obtain ⟨found, -⟩ := h.eq_of_tokens tokens
      simp [unknown] at found
  next noPair => exact .instruction code fun _ _ h => noPair _ _ h.tokens

theorem reads_ofLine (line : Text) : Reads line (.ofLine line) := by
  unfold Statement.ofLine
  split
  next blank => exact .nothing (by simp [isCode, blank]) (by simp [Declares, blank])
  next comment => exact .nothing (by simp [isCode, comment]) (by simp [Declares, comment])
  next name declared => exact .declaration (by simp [isCode, declared]) declared
  next trimmed blank comment declared =>
    apply reads_ofTokens
    unfold isCode
    split
    next nil => exact absurd nil blank
    next first rest cons =>
      have notComment : first ≠ .char '#' := fun h => comment rest (h ▸ cons)
      have notDeclared : first ≠ .char ':' := fun h => declared rest (h ▸ cons)
      simp [notComment, notDeclared]

/-! ### Indices -/

/-- The index of a line is the number of instructions before it. -/
def index (ls : List Text) (k : Nat) : Nat := (ls.take k).countP isCode

theorem index_append (h : k ≤ ls.length) (rest : List Text) : index (ls ++ rest) k = index ls k := by
  rw [index, List.take_append_of_le_length h, index]

theorem index_length (ls : List Text) : index ls ls.length = ls.countP isCode := by
  rw [index, List.take_length]

theorem index_succ (at_k : ls[k]? = some line) (code : isCode line = true) :
    index ls (k + 1) = index ls k + 1 := by
  simp [index, List.take_add_one, at_k, code]

theorem index_le_countP (ls : List Text) (k : Nat) : index ls k ≤ ls.countP isCode :=
  (List.take_sublist k ls).countP_le

theorem index_mono (ls : List Text) (h : j ≤ k) : index ls j ≤ index ls k := by
  have := index_le_countP (ls.take k) j
  rwa [index, List.take_take, Nat.min_eq_left h] at this

/-- Every number below the length of the program is the index of a line with an instruction. -/
theorem exists_index (h : n < ls.countP isCode) :
    ∃ k line, ls[k]? = some line ∧ isCode line = true ∧ index ls k = n := by
  induction ls using List.reverseRecOn with
  | nil => simp at h
  | append_singleton ls line ih =>
    by_cases before : n < ls.countP isCode
    · obtain ⟨k, line', at_k, code, rfl⟩ := ih before
      have lt : k < ls.length := (List.getElem?_eq_some_iff.1 at_k).1
      refine ⟨k, line', ?_, code, index_append (Nat.le_of_lt lt) _⟩
      rwa [List.getElem?_append_left lt]
    · -- the last line is the only one that can have this index
      rw [List.countP_append, List.countP_singleton] at h
      have code : isCode line = true := by grind
      refine ⟨ls.length, line, by simp, code, ?_⟩
      rw [index_append (Nat.le_refl _), index_length]
      grind

/-! ### Declarations and flaws -/

/-- Lines are counted from zero here. -/
def DeclaredAt (ls : List Text) (k : Nat) (name : Text) : Prop :=
  ∃ line, ls[k]? = some line ∧ Declares line name

/-- What is wrong with a line that comes after the lines `before`, whatever follows. -/
inductive Flaw (isStrict : Bool) (before : List Text) (line : Text) : Objection → Prop where
  | invalid {name : Text} : Declares line name → isLabel name = false →
      Flaw isStrict before line (.invalidLabel name)
  | repeated {name : Text} (k : Nat) : Declares line name → isLabel name = true →
      DeclaredAt before k name → Flaw isStrict before line (.repeatedLabel name)
  | untranslatable {e : Objection} : isCode line = true → (∀ op label, ¬ Refers line op label) →
      instructionOfTokens isStrict line.trim.words = .error e → Flaw isStrict before line e

def FlawAt (isStrict : Bool) (ls : List Text) (k : Nat) (e : Objection) : Prop :=
  ∃ line, ls[k]? = some line ∧ Flaw isStrict (ls.take k) line e

def Flawless (isStrict : Bool) (ls : List Text) : Prop := ∀ k e, ¬ FlawAt isStrict ls k e

/-- No line before has a flaw. -/
def FirstFlaw (isStrict : Bool) (ls : List Text) (k : Nat) (e : Objection) : Prop :=
  FlawAt isStrict ls k e ∧ ∀ j < k, ∀ e', ¬ FlawAt isStrict ls j e'

theorem declaredAt_snoc_iff :
    DeclaredAt (ls ++ [line]) k name ↔
      DeclaredAt ls k name ∨ k = ls.length ∧ Declares line name := by
  simp only [DeclaredAt, List.getElem?_append, List.getElem?_singleton]
  grind

theorem DeclaredAt.lt (h : DeclaredAt ls k name) : k < ls.length := by
  obtain ⟨line, at_k, -⟩ := h
  exact (List.getElem?_eq_some_iff.1 at_k).1

theorem flawAt_append_of_lt (h : k < ls.length) (rest : List Text) :
    FlawAt isStrict (ls ++ rest) k e ↔ FlawAt isStrict ls k e := by
  rw [FlawAt, List.getElem?_append_left h, List.take_append_of_le_length (Nat.le_of_lt h), FlawAt]

theorem flawAt_append_cons (rest : List Text) :
    FlawAt isStrict (ls ++ line :: rest) ls.length e ↔ Flaw isStrict ls line e := by
  simp [FlawAt]

theorem FlawAt.lt (h : FlawAt isStrict ls k e) : k < ls.length := by
  obtain ⟨line, at_k, -⟩ := h
  exact (List.getElem?_eq_some_iff.1 at_k).1

theorem flawless_nil : Flawless isStrict [] := by simp [Flawless, FlawAt]

theorem Flawless.snoc (h : Flawless isStrict ls) (sound : ∀ e, ¬ Flaw isStrict ls line e) :
    Flawless isStrict (ls ++ [line]) := by
  intro k e flaw
  have lt : k < ls.length + 1 := by simpa using flaw.lt
  obtain before | rfl : k < ls.length ∨ k = ls.length := by omega
  · exact h k e ((flawAt_append_of_lt before _).1 flaw)
  · exact sound e ((flawAt_append_cons []).1 flaw)

theorem Declares.isCode_eq_false (h : Declares line name) : isCode line = false := by
  rw [isCode, h]
  rfl

theorem not_declares_of_code (code : isCode line = true) (name : Text) : ¬ Declares line name := by
  intro declares
  simp [declares.isCode_eq_false] at code

/-- The only thing that can be wrong with an instruction by itself is that it has no translation. -/
theorem Flaw.of_code (flaw : Flaw isStrict ls line e) (code : isCode line = true) :
    (∀ op label, ¬ Refers line op label) ∧
      instructionOfTokens isStrict line.trim.words = .error e := by
  cases flaw with
  | invalid declares => exact absurd declares (not_declares_of_code code _)
  | repeated _ declares => exact absurd declares (not_declares_of_code code _)
  | untranslatable _ other failed => exact ⟨other, failed⟩

theorem Declares.unique {name' : Text} (h : Declares line name) (h' : Declares line name') :
    name' = name :=
  (List.cons.inj (h'.symm.trans h)).2

/-- Where there is no flaw, a label is declared once. -/
theorem Flawless.declaredAt_unique (h : Flawless isStrict ls) (first : DeclaredAt ls j name)
    (second : DeclaredAt ls k name) : j = k := by
  have le {j k : Nat} (first : DeclaredAt ls j name) (second : DeclaredAt ls k name) : k ≤ j := by
    by_contra later
    have lt : j < k := by omega
    obtain ⟨line, at_k, declares⟩ := second
    have before : DeclaredAt (ls.take k) j name := by
      obtain ⟨line', at_j, declares'⟩ := first
      exact ⟨line', by rwa [List.getElem?_take_of_lt lt], declares'⟩
    -- the later of two declarations is flawed, whether the name is a label or not
    cases valid : isLabel name with
    | false => exact h k _ ⟨line, at_k, .invalid declares valid⟩
    | true => exact h k _ ⟨line, at_k, .repeated j declares valid before⟩
  exact Nat.le_antisymm (le second first) (le first second)

/-! ### Drafts -/

/-- What the slot of the line with the number `n` is. -/
inductive Fits (isStrict : Bool) (line : Text) (n : Nat) : Slot → Prop where
  | waiting {op : Opcode} {label : Text} : Refers line op label →
      Fits isStrict line n (.waiting op label n)
  | filled {i : Instruction} : (∀ op label, ¬ Refers line op label) →
      instructionOfTokens isStrict line.trim.words = .ok i → Fits isStrict line n (.filled i)

/-- The slots are those of the lines with instructions, in order. -/
structure Placed (isStrict : Bool) (ls : List Text) (slots : List Slot) : Prop where
  length : slots.length = ls.countP isCode
  fits : ∀ k line, ls[k]? = some line → isCode line = true →
    ∃ s, slots[index ls k]? = some s ∧ Fits isStrict line (k + 1) s

/-- The labels are those that the lines declare, with the indices of the declarations. -/
def Tabled (ls : List Text) (labels : List (Text × Nat)) : Prop :=
  ∀ name t, labels.lookup name = some t ↔ ∃ k, DeclaredAt ls k name ∧ index ls k = t

/-- The draft is what has been read of the lines. -/
structure Drafted (isStrict : Bool) (ls : List Text) (d : Draft) : Prop where
  placed : Placed isStrict ls d.slots.reverse
  size : d.size = d.slots.length
  tabled : Tabled ls d.labels

variable {slots : List Slot} {labels : List (Text × Nat)} {d : Draft}

theorem drafted_empty (isStrict : Bool) : Drafted isStrict [] {} :=
  ⟨⟨rfl, by simp⟩, rfl, by simp [Tabled, DeclaredAt]⟩

theorem Tabled.lookup_eq_none_iff (h : Tabled ls labels) :
    labels.lookup name = none ↔ ∀ k, ¬ DeclaredAt ls k name := by
  rw [Option.eq_none_iff_forall_ne_some]
  simp only [ne_eq, h name]
  grind

theorem Placed.snoc (h : Placed isStrict ls slots) (noCode : isCode line = false) :
    Placed isStrict (ls ++ [line]) slots := by
  refine ⟨by simp [h.length, noCode], fun k line' at_k code => ?_⟩
  have lt : k < ls.length := by grind
  rw [List.getElem?_append_left lt] at at_k
  rw [index_append (Nat.le_of_lt lt)]
  exact h.fits k line' at_k code

theorem Placed.push {s : Slot} (h : Placed isStrict ls slots) (code : isCode line = true)
    (fits : Fits isStrict line (ls.length + 1) s) :
    Placed isStrict (ls ++ [line]) (slots ++ [s]) := by
  refine ⟨by simp [h.length, code], fun k line' at_k code' => ?_⟩
  by_cases lt : k < ls.length
  · rw [List.getElem?_append_left lt] at at_k
    obtain ⟨s', at_index, fits'⟩ := h.fits k line' at_k code'
    refine ⟨s', ?_, fits'⟩
    rw [index_append (Nat.le_of_lt lt)]
    grind
  · obtain rfl : k = ls.length := by grind
    obtain rfl : line = line' := by simpa using at_k
    refine ⟨s, ?_, fits⟩
    rw [index_append (Nat.le_refl _), index_length, ← h.length]
    simp

/-- A line adds at most the label that it declares, at the number of instructions so far. -/
theorem exists_declaredAt_snoc_iff {t : Nat} :
    (∃ k, DeclaredAt (ls ++ [line]) k name ∧ index (ls ++ [line]) k = t) ↔
      (∃ k, DeclaredAt ls k name ∧ index ls k = t) ∨ Declares line name ∧ ls.countP isCode = t := by
  have last : index (ls ++ [line]) ls.length = ls.countP isCode := by
    rw [index_append (Nat.le_refl _), index_length]
  constructor
  · rintro ⟨k, declared, rfl⟩
    obtain before | ⟨rfl, declares⟩ := declaredAt_snoc_iff.1 declared
    · exact .inl ⟨k, before, (index_append (Nat.le_of_lt before.lt) _).symm⟩
    · exact .inr ⟨declares, last.symm⟩
  · rintro (⟨k, before, rfl⟩ | ⟨declares, rfl⟩)
    · exact ⟨k, declaredAt_snoc_iff.2 (.inl before), index_append (Nat.le_of_lt before.lt) _⟩
    · exact ⟨ls.length, declaredAt_snoc_iff.2 (.inr ⟨rfl, declares⟩), last⟩

theorem Tabled.snoc (h : Tabled ls labels) (noDeclaration : ∀ name, ¬ Declares line name) :
    Tabled (ls ++ [line]) labels := by
  intro name t
  rw [h name t, exists_declaredAt_snoc_iff]
  simp [noDeclaration]

theorem Tabled.declare (h : Tabled ls labels) (declares : Declares line name)
    (fresh : ∀ k, ¬ DeclaredAt ls k name) :
    Tabled (ls ++ [line]) ((name, ls.countP isCode) :: labels) := by
  intro name' t
  rw [exists_declaredAt_snoc_iff, List.lookup_cons]
  by_cases same : name' = name
  · subst same
    simp [fresh, declares]
  · have other : ¬ Declares line name' := fun h => same (declares.unique h)
    rw [beq_false_of_ne same]
    simp [other, h name']

/-- A line with an instruction takes the next slot. -/
theorem Drafted.push {s : Slot} (h : Drafted isStrict ls d) (code : isCode line = true)
    (fits : Fits isStrict line (ls.length + 1) s) : Drafted isStrict (ls ++ [line]) (d.push s) where
  placed := by simpa [Draft.push] using h.placed.push code fits
  size := congrArg (· + 1) h.size
  tabled := h.tabled.snoc (not_declares_of_code code)

/-! ### One line -/

/-- The outcome of adding a line after others: it is refused for its flaw, or it has none. -/
inductive Adds (isStrict : Bool) (ls : List Text) (line : Text) : Except Objection Draft → Prop where
  | error {e : Objection} : Flaw isStrict ls line e → Adds isStrict ls line (.error e)
  | ok {d : Draft} : (∀ e, ¬ Flaw isStrict ls line e) → Drafted isStrict (ls ++ [line]) d →
      Adds isStrict ls line (.ok d)

theorem Drafted.declare (h : Drafted isStrict ls d) (declares : Declares line name) :
    Adds isStrict ls line (d.declare name) := by
  have noCode := declares.isCode_eq_false
  unfold Draft.declare
  split
  next invalid => exact .error (.invalid declares (by simpa using invalid))
  next valid =>
    have valid : isLabel name = true := by simpa using valid
    split
    next known =>
      obtain ⟨t, found⟩ := Option.isSome_iff_exists.1 known
      obtain ⟨k, declared, -⟩ := (h.tabled name t).1 found
      exact .error (.repeated k declares valid declared)
    next unknown =>
      have fresh := h.tabled.lookup_eq_none_iff.1 (Option.not_isSome_iff_eq_none.1 unknown)
      have here : d.size = ls.countP isCode := by
        rw [h.size, ← h.placed.length, List.length_reverse]
      refine .ok ?_ ⟨h.placed.snoc noCode, h.size, here ▸ h.tabled.declare declares fresh⟩
      intro e flaw
      cases flaw with
      | invalid declares' invalid =>
        obtain rfl := declares.unique declares'
        simp [valid] at invalid
      | repeated k declares' _ declared =>
        obtain rfl := declares.unique declares'
        exact fresh k declared
      | untranslatable code => simp [noCode] at code

/-- A line is refused if it has a flaw, and otherwise added to the draft. -/
theorem Drafted.add (h : Drafted isStrict ls d) (line : Text) :
    Adds isStrict ls line (d.add isStrict (ls.length + 1) line) := by
  have reads := reads_ofLine line
  unfold Draft.add
  generalize Statement.ofLine line = statement at reads ⊢
  cases reads with
  | nothing noCode noDeclaration =>
    refine .ok ?_ ⟨h.placed.snoc noCode, h.size, h.tabled.snoc noDeclaration⟩
    intro e flaw
    cases flaw with
    | invalid declares => exact noDeclaration _ declares
    | repeated _ declares => exact noDeclaration _ declares
    | untranslatable code => simp [noCode] at code
  | declaration _ declares => exact h.declare declares
  | jump refers =>
    refine .ok (fun e flaw => ?_) (h.push refers.code (.waiting refers))
    exact (flaw.of_code refers.code).1 _ _ refers
  | instruction code other =>
    dsimp only
    cases translated : instructionOfTokens isStrict line.trim.words with
    | error e => exact .error (.untranslatable code other translated)
    | ok i =>
      refine .ok (fun e flaw => ?_) (h.push code (.filled other translated))
      simpa [translated] using (flaw.of_code code).2

/-! ### All lines -/

/-- Either no line has a flaw, or the first that has one is reported. -/
theorem Drafted.addAll (h : Drafted isStrict ls d) (flawless : Flawless isStrict ls)
    (rest : List Text) :
    (∃ d', d.addAll isStrict (ls.length + 1) rest = .ok d' ∧ Drafted isStrict (ls ++ rest) d' ∧
      Flawless isStrict (ls ++ rest)) ∨
    ∃ k e, d.addAll isStrict (ls.length + 1) rest = .error ⟨k + 1, e⟩ ∧
      FirstFlaw isStrict (ls ++ rest) k e := by
  -- the lines that have been added move from the rest to the lines before it
  induction rest generalizing ls d with
  | nil => exact .inl ⟨d, rfl, by simpa using h, by simpa using flawless⟩
  | cons line rest ih =>
    have added := h.add line
    unfold Draft.addAll
    cases outcome : d.add isStrict (ls.length + 1) line with
    | error e =>
      rw [outcome] at added
      cases added with
      | error flaw =>
        refine .inr ⟨ls.length, e, rfl, (flawAt_append_cons rest).2 flaw, fun j lt e' flaw' => ?_⟩
        exact flawless j e' ((flawAt_append_of_lt lt _).1 flaw')
    | ok d' =>
      rw [outcome] at added
      cases added with
      | ok sound drafted =>
        have further := ih drafted (flawless.snoc sound)
        simpa using further

/-! ### Filling the slots -/

/-- The program holds the instructions of the slots. -/
structure Fills (labels : List (Text × Nat)) (slots : List Slot) (p : Program) : Prop where
  length : p.length = slots.length
  instruction : ∀ (n : Nat) (s : Slot), slots[n]? = some s →
    ∃ i, p[n]? = some i ∧ s.instruction labels = .ok i

/-- Either every slot has its instruction, or the first that has none is reported. -/
theorem fillSlots_cases (labels : List (Text × Nat)) (slots : List Slot) :
    (∃ p, fillSlots labels slots = .ok p ∧ Fills labels slots p) ∨
    ∃ (n : Nat) (s : Slot) (err : AssembleError), fillSlots labels slots = .error err ∧
      slots[n]? = some s ∧ s.instruction labels = .error err ∧
      ∀ m < n, ∀ s' : Slot, slots[m]? = some s' → ∃ i, s'.instruction labels = .ok i := by
  induction slots with
  | nil => exact .inl ⟨[], rfl, rfl, by simp⟩
  | cons s rest ih =>
    simp only [fillSlots]
    cases first : s.instruction labels with
    | error err => exact .inr ⟨0, s, err, rfl, rfl, first, by simp⟩
    | ok i =>
      obtain ⟨p, filled, length, all⟩ | ⟨n, s', err, unfilled, at_n, failed, before⟩ := ih
      · refine .inl ⟨i :: p, by simp [filled], by simp [length], ?_⟩
        rintro (_ | n) s' at_n
        · obtain rfl : s = s' := by simpa using at_n
          exact ⟨i, rfl, first⟩
        · exact all n s' at_n
      · refine .inr ⟨n + 1, s', err, by simp [unfilled], at_n, failed, ?_⟩
        rintro (_ | m) lt s'' at_m
        · obtain rfl : s = s'' := by simpa using at_m
          exact ⟨i, first⟩
        · exact before m (by omega) s'' at_m

/-- A jump at this line refers to a label that no line declares. -/
def Dangling (ls : List Text) (k : Nat) (label : Text) : Prop :=
  ∃ line op, ls[k]? = some line ∧ Refers line op label ∧ ∀ t, ¬ DeclaredAt ls t label

def FirstDangling (ls : List Text) (k : Nat) (label : Text) : Prop :=
  Dangling ls k label ∧ ∀ j < k, ∀ label', ¬ Dangling ls j label'

/-- The program has one instruction for each line that holds one, at the index of the line. A jump
to a label goes to the index of the only line that declares the label, before or after the jump;
every other instruction is the translation of its line. -/
structure Assembled (isStrict : Bool) (ls : List Text) (p : Program) : Prop where
  length : p.length = ls.countP isCode
  jump : ∀ k line op label, ls[k]? = some line → Refers line op label →
    ∃ t v, (∀ t', DeclaredAt ls t' label ↔ t' = t) ∧ p[index ls k]? = some (.of op v) ∧
      v.toInt = index ls t ∧ 0 ≤ v.toInt ∧ v.toInt ≤ p.length
  other : ∀ k line, ls[k]? = some line → isCode line = true →
    (∀ op label, ¬ Refers line op label) →
    ∃ i, instructionOfTokens isStrict line.trim.words = .ok i ∧ p[index ls k]? = some i

/-- The slot of a jump to a label waits for the label. -/
theorem Placed.slot_of_refers (h : Placed isStrict ls slots) (at_k : ls[k]? = some line)
    (refers : Refers line op label) :
    slots[index ls k]? = some (.waiting op label (k + 1)) := by
  obtain ⟨s, at_index, fits⟩ := h.fits k line at_k refers.code
  cases fits with
  | waiting refers' =>
    obtain ⟨rfl, rfl⟩ := refers.unique refers'
    exact at_index
  | filled other => exact absurd refers (other op label)

theorem instruction_waiting_eq_ok_iff {i : Instruction} :
    (Slot.waiting op label n).instruction labels = .ok i ↔
      ∃ t, labels.lookup label = some t ∧ i = .of op (.ofNat t) := by
  simp only [Slot.instruction]
  cases labels.lookup label with
  | none => simp
  | some t => simp [eq_comm]

theorem assembled_of_fills {p : Program} (placed : Placed isStrict ls slots)
    (tabled : Tabled ls labels) (flawless : Flawless isStrict ls) (few : ls.length < 2 ^ 31)
    (fills : Fills labels slots p) : Assembled isStrict ls p where
  length := fills.length.trans placed.length
  jump k line op label at_k refers := by
    obtain ⟨i, at_index, resolved⟩ := fills.instruction _ _ (placed.slot_of_refers at_k refers)
    obtain ⟨target, found, rfl⟩ := instruction_waiting_eq_ok_iff.1 resolved
    obtain ⟨t, declared, rfl⟩ := (tabled label target).1 found
    have total : p.length = ls.countP isCode := fills.length.trans placed.length
    have le : index ls t ≤ ls.countP isCode := index_le_countP ls t
    have most : ls.countP isCode ≤ ls.length := List.countP_le_length
    have small : index ls t < 2 ^ 31 := by omega
    have exact : (Int32.ofNat (index ls t)).toInt = index ls t := Int32.toInt_ofNat_of_lt small
    refine ⟨t, _, fun t' => ?_, at_index, exact, by omega, by omega⟩
    constructor
    · exact fun declared' => flawless.declaredAt_unique declared' declared
    · rintro rfl
      exact declared
  other k line at_k code other := by
    obtain ⟨s, at_index, fits⟩ := placed.fits k line at_k code
    obtain ⟨i, at_index', instruction⟩ := fills.instruction _ _ at_index
    cases fits with
    | waiting refers => exact absurd refers (other _ _)
    | filled _ translated =>
      obtain rfl := Except.ok.inj instruction
      exact ⟨_, translated, at_index'⟩

/-- The reference that is reported is the first one whose label no line declares. -/
theorem firstDangling_of_unfilled {s : Slot} {err : AssembleError}
    (placed : Placed isStrict ls slots) (tabled : Tabled ls labels) (at_n : slots[n]? = some s)
    (failed : s.instruction labels = .error err)
    (before : ∀ m < n, ∀ s' : Slot, slots[m]? = some s' → ∃ i, s'.instruction labels = .ok i) :
    ∃ k label, FirstDangling ls k label ∧ err = ⟨k + 1, .missingLabel label⟩ := by
  have lt : n < ls.countP isCode := placed.length ▸ (List.getElem?_eq_some_iff.1 at_n).1
  obtain ⟨k, line, at_k, code, rfl⟩ := exists_index lt
  obtain ⟨s', at_index, fits⟩ := placed.fits k line at_k code
  obtain rfl := Option.some.inj (at_n.symm.trans at_index)
  cases fits with
  | filled => cases failed
  | @waiting op label refers =>
    have absent : labels.lookup label = none := by
      cases found : labels.lookup label with
      | none => rfl
      | some t => simp [Slot.instruction, found] at failed
    refine ⟨k, label, ⟨⟨line, op, at_k, refers, tabled.lookup_eq_none_iff.1 absent⟩, ?_⟩, ?_⟩
    · rintro j lt label' ⟨line', op', at_j, refers', undeclared⟩
      -- an earlier reference has an earlier slot, which has been filled
      have earlier : index ls j < index ls k := by
        rw [← Nat.add_one_le_iff, ← index_succ at_j refers'.code]
        exact index_mono ls lt
      obtain ⟨i, resolved⟩ := before _ earlier _ (placed.slot_of_refers at_j refers')
      obtain ⟨t, found, -⟩ := instruction_waiting_eq_ok_iff.1 resolved
      simp [tabled.lookup_eq_none_iff.2 undeclared] at found
    · simpa [Slot.instruction, absent] using failed.symm

/-! ### Kinds of failures -/

theorem withOperand_ne_notFound {token : Text} (h : withOperand op token = .error e) :
    e.kind ≠ .notFound := by
  cases read : Numeral.read 32 token with
  | ok v => simp [withOperand, operand, read] at h
  | error fault =>
    obtain rfl : .badOperand token fault = e := by simpa [withOperand, operand, read] using h
    nofun

theorem instructionOfTokens_ne_notFound {tokens : List Text}
    (h : instructionOfTokens isStrict tokens = .error e) : e.kind ≠ .notFound := by
  unfold instructionOfTokens strict lenient at h
  grind [Objection.kind, withOperand_ne_notFound]

theorem Flaw.kind_ne_notFound (h : Flaw isStrict ls line e) : e.kind ≠ .notFound := by
  cases h with
  | invalid => nofun
  | repeated => nofun
  | untranslatable _ _ failed => exact instructionOfTokens_ne_notFound failed

theorem kind_failure (err : AssembleError) : err.failure.kind = err.objection.kind := by
  obtain ⟨line, objection⟩ := err
  cases objection <;> rfl

/-! ### Whole sources -/

theorem Assembled.not_dangling {p : Program} (h : Assembled isStrict ls p) (k : Nat)
    (label : Text) : ¬ Dangling ls k label := by
  rintro ⟨line, op, at_k, refers, undeclared⟩
  obtain ⟨t, -, unique, -⟩ := h.jump k line op label at_k refers
  exact undeclared t ((unique t).2 rfl)

inductive Assembles (isStrict : Bool) (ls : List Text) : Except AssembleError Program → Prop where
  | ok {p : Program} : Flawless isStrict ls → Assembled isStrict ls p →
      Assembles isStrict ls (.ok p)
  | flaw {k : Nat} {e : Objection} : FirstFlaw isStrict ls k e →
      Assembles isStrict ls (.error ⟨k + 1, e⟩)
  | dangling {k : Nat} {label : Text} : Flawless isStrict ls → FirstDangling ls k label →
      Assembles isStrict ls (.error ⟨k + 1, .missingLabel label⟩)

theorem assembles_lines (o : Options) (source : Text) (labels : o.labels = true)
    (few : (pieces source).length < 2 ^ 31) :
    Assembles o.strict (lines source) (assemble o source) := by
  rw [← length_lines] at few
  rw [assemble, if_pos labels]
  obtain ⟨d, added, drafted, flawless⟩ | ⟨k, e, refused, first⟩ :=
    (drafted_empty o.strict).addAll flawless_nil (lines source)
  · rw [List.length_nil, Nat.zero_add] at added
    rw [List.nil_append] at drafted flawless
    obtain ⟨placed, -, tabled⟩ := drafted
    simp only [added, Draft.program]
    obtain ⟨p, filled, fills⟩ | ⟨n, s, err, unfilled, at_n, failed, before⟩ :=
      fillSlots_cases d.labels d.slots.reverse
    · rw [filled]
      exact .ok flawless (assembled_of_fills placed tabled flawless few fills)
    · obtain ⟨k, label, first, rfl⟩ := firstDangling_of_unfilled placed tabled at_n failed before
      rw [unfilled]
      exact .dangling flawless first
  · rw [List.length_nil, Nat.zero_add] at refused
    rw [refused]
    exact .flaw first

variable {r : Except AssembleError Program} {err : AssembleError}

theorem Assembles.firstFlaw (h : Assembles isStrict ls r) (flaw : FlawAt isStrict ls k e) :
    ∃ k e, FirstFlaw isStrict ls k e ∧ r = .error ⟨k + 1, e⟩ := by
  cases h with
  | ok flawless => exact absurd flaw (flawless k e)
  | flaw first => exact ⟨_, _, first, rfl⟩
  | dangling flawless => exact absurd flaw (flawless k e)

theorem Assembles.firstDangling (h : Assembles isStrict ls (.error err))
    (kind : err.failure.kind = .notFound) :
    Flawless isStrict ls ∧
      ∃ k label, FirstDangling ls k label ∧ err = ⟨k + 1, .missingLabel label⟩ := by
  cases h with
  | flaw first =>
    obtain ⟨⟨line, -, flaw⟩, -⟩ := first
    rw [kind_failure] at kind
    exact absurd kind flaw.kind_ne_notFound
  | dangling flawless first => exact ⟨flawless, _, _, first, rfl⟩

theorem Assembles.notFound (h : Assembles isStrict ls r) (flawless : Flawless isStrict ls)
    (dangling : Dangling ls k label) : ∃ err, r = .error err ∧ err.failure.kind = .notFound := by
  cases h with
  | ok _ assembled => exact absurd dangling (assembled.not_dangling k label)
  | flaw first => exact absurd first.1 (flawless _ _)
  | dangling => exact ⟨_, rfl, kind_failure _⟩

theorem Assembles.exists_ok_iff (h : Assembles isStrict ls r) :
    (∃ p, r = .ok p) ↔ Flawless isStrict ls ∧ ∀ k label, ¬ Dangling ls k label := by
  constructor
  · rintro ⟨p, rfl⟩
    cases h with
    | ok flawless assembled => exact ⟨flawless, assembled.not_dangling⟩
  · rintro ⟨flawless, resolved⟩
    cases h with
    | ok => exact ⟨_, rfl⟩
    | flaw first => exact absurd first.1 (flawless _ _)
    | dangling _ first => exact absurd first.1 (resolved _ _)

/-- A source with labels is assembled as two passes over its lines would do it. If a line is flawed,
the first such line is reported. A label is not found only if no line is flawed, and then the first
jump to a label that no line declares is reported. In all other cases there is a program. -/
theorem assemble_in_two_passes (o : Options) (source : Text) (labels : o.labels = true)
    (few : (pieces source).length < 2 ^ 31) :
    ∃ ls, HasLines source ls ∧
      (∀ p, assemble o source = .ok p → Assembled o.strict ls p) ∧
      ((∃ k e, FlawAt o.strict ls k e) →
        ∃ k e, FirstFlaw o.strict ls k e ∧ assemble o source = .error ⟨k + 1, e⟩) ∧
      ((∃ err, assemble o source = .error err ∧ err.failure.kind = .notFound) ↔
        Flawless o.strict ls ∧ ∃ k label, Dangling ls k label) ∧
      (∀ err, assemble o source = .error err → err.failure.kind = .notFound →
        ∃ k label, FirstDangling ls k label ∧ err = ⟨k + 1, .missingLabel label⟩) ∧
      ((∃ p, assemble o source = .ok p) ↔
        Flawless o.strict ls ∧ ∀ k label, ¬ Dangling ls k label) := by
  have outcome := assembles_lines o source labels few
  refine ⟨lines source, hasLines_lines source, ?_, ?_, ⟨?_, ?_⟩, ?_, outcome.exists_ok_iff⟩
  · intro p assembled
    rw [assembled] at outcome
    cases outcome with
    | ok _ assembled => exact assembled
  · rintro ⟨k, e, flaw⟩
    exact outcome.firstFlaw flaw
  · rintro ⟨err, failed, kind⟩
    obtain ⟨flawless, k, label, first, -⟩ := (failed ▸ outcome).firstDangling kind
    exact ⟨flawless, k, label, first.1⟩
  · rintro ⟨flawless, k, label, dangling⟩
    exact outcome.notFound flawless dangling
  · intro err failed kind
    exact ((failed ▸ outcome).firstDangling kind).2

/-- One label is declared after the jump to it, at the end of the program, and one before it. Without
the first of them the first jump is reported. -/
theorem assemble_forward_and_back :
    let o : Options := { labels := true }
    let source := Text.ofString "jmp end\r\n:top\n# again\n jif top\n:end\n"
    let cut := Text.ofString "jmp end\r\n:top\n# again\n jif top"
    let ls := ["jmp end", ":top", "# again", " jif top"].map Text.ofString
    let p : Program := [.of .jump 2, .of .jumpIfTrue 1]
    o.labels = true ∧ (pieces source).length < 2 ^ 31 ∧ assemble o source = .ok p ∧
      HasLines source (ls ++ [Text.ofString ":end"]) ∧
      Assembled false (ls ++ [Text.ofString ":end"]) p ∧ (pieces cut).length < 2 ^ 31 ∧
      assemble o cut = .error ⟨1, .missingLabel (Text.ofString "end")⟩ ∧ HasLines cut ls ∧
      Flawless false ls ∧ ∃ k label, Dangling ls k label := by
  intro o source cut ls p
  have has : HasLines source (ls ++ [Text.ofString ":end"]) := hasLines_iff.2 (by decide)
  have few : (pieces source).length < 2 ^ 31 := by decide
  have assembled : assemble o source = .ok p := by decide
  have has' : HasLines cut ls := hasLines_iff.2 (by decide)
  have few' : (pieces cut).length < 2 ^ 31 := by decide
  have failed : assemble o cut = .error ⟨1, .missingLabel (Text.ofString "end")⟩ := by decide
  obtain ⟨_, lines, program, -⟩ := assemble_in_two_passes o source rfl few
  obtain ⟨_, lines', -, -, notFound, -⟩ := assemble_in_two_passes o cut rfl few'
  obtain rfl := has.unique lines
  obtain rfl := has'.unique lines'
  exact ⟨rfl, few, assembled, has, program p assembled, few', failed, has',
    notFound.1 ⟨_, failed, rfl⟩⟩

end Assembly

end StackMachine
