import StackMachine.Proofs.LabelResolution

/-!
# Strict and lenient assembly

The two ways to read a line differ on loose lines only: those with an unknown mnemonic, without an
operand where one is needed, or with too many tokens. So a source is a program in the strict way if
and only if it is the same program in the lenient way and none of its lines is loose, with labels as
well as without them.
-/

namespace StackMachine.Assembly

variable {isStrict labels : Bool} {line name token : Text} {tokens ls : List Text}
  {op : Opcode} {i : Instruction} {p : Program} {d d' : Draft} {n : Nat}

/-! ### Loose lines -/

/-- The tokens of a line that holds an instruction. Without labels they stand between single spaces,
and every line that is not empty holds an instruction. -/
def instructionTokens? (labels : Bool) (line : Text) : Option (List Text) :=
  if labels then
    if isCode line then some line.trim.words else none
  else
    if line = [] then none else some (line.split ' ')

/-- Tokens that the strict way refuses before it looks at an operand. -/
inductive Loose : List Text → Prop where
  | unknown {name : Text} {rest : List Text} : (∀ op : Opcode, name ≠ Text.ofString op.mnemonic) →
      Loose (name :: rest)
  | incomplete {op : Opcode} : op.takesOperand = true → Loose [Text.ofString op.mnemonic]
  | overlong {tokens : List Text} : 2 < tokens.length → Loose tokens

/-- The line holds an instruction whose tokens are loose. -/
def IsLoose (labels : Bool) (line : Text) : Prop :=
  ∃ tokens, instructionTokens? labels line = some tokens ∧ Loose tokens

theorem not_loose_nil : ¬ Loose [] := by
  rintro (_ | _ | long)
  simp at long

theorem not_loose_bare (bare : op.takesOperand = false) :
    ¬ Loose [Text.ofString op.mnemonic] := by
  generalize single : [Text.ofString op.mnemonic] = tokens
  intro loose
  cases loose with
  | unknown other => exact other op (List.cons.inj single).1.symm
  | @incomplete op' takes =>
    have same := congrArg Opcode.ofMnemonic? (List.cons.inj single).1
    simp only [Opcode.ofMnemonic?_mnemonic, Option.some.injEq] at same
    simp [← same, bare] at takes
  | overlong long => simp [← single] at long

theorem not_loose_pair (op : Opcode) (token : Text) :
    ¬ Loose [Text.ofString op.mnemonic, token] := by
  generalize pair : [Text.ofString op.mnemonic, token] = tokens
  intro loose
  cases loose with
  | unknown other => exact other op (List.cons.inj pair).1.symm
  | incomplete takes => simp at pair
  | overlong long => simp [← pair] at long

theorem ofMnemonic?_eq_none_iff :
    Opcode.ofMnemonic? name = none ↔ ∀ op : Opcode, name ≠ Text.ofString op.mnemonic := by
  rw [Option.eq_none_iff_forall_ne_some]
  simp only [ne_eq, Opcode.ofMnemonic?_eq_some_iff]

/-- Tokens are an instruction to the strict way if and only if they are the same instruction to the
lenient way and not loose. -/
theorem strict_eq_ok_iff : strict tokens = .ok i ↔ lenient tokens = .ok i ∧ ¬ Loose tokens := by
  cases tokens with
  | nil => simp [strict, lenient, not_loose_nil]
  | cons name operands =>
    cases known : Opcode.ofMnemonic? name with
    | none =>
      have loose : Loose (name :: operands) := .unknown (ofMnemonic?_eq_none_iff.1 known)
      simp [strict, known, loose]
    | some op =>
      obtain rfl := Opcode.ofMnemonic?_eq_some_iff.1 known
      match operands with
      | [] =>
        cases takes : op.takesOperand with
        | true => simp [strict, takes, Loose.incomplete takes]
        | false => simp [strict, lenient, takes, not_loose_bare takes]
      | [token] => simp [strict, lenient, not_loose_pair]
      | a :: b :: rest =>
        have loose : Loose (Text.ofString op.mnemonic :: a :: b :: rest) := .overlong (by simp)
        simp [strict, loose]

/-! ### Sources without labels -/

theorem instructionOfLine_strict_iff :
    instructionOfLine true line = .ok i ↔
      instructionOfLine false line = .ok i ∧ ¬ IsLoose false line := by
  by_cases empty : line = []
  · simp [instructionOfLine, IsLoose, instructionTokens?, empty]
  · simp [instructionOfLine, IsLoose, instructionTokens?, empty, instructionOfTokens,
      strict_eq_ok_iff]

theorem programOfLines_cons_eq_ok_iff :
    programOfLines isStrict n (line :: ls) = .ok p ↔
      ∃ i q, instructionOfLine isStrict line = .ok i ∧
        programOfLines isStrict (n + 1) ls = .ok q ∧ p = i :: q := by
  rw [programOfLines]
  cases instructionOfLine isStrict line with
  | error e => simp
  | ok i =>
    cases programOfLines isStrict (n + 1) ls with
    | error e => simp
    | ok q => simp [eq_comm]

theorem programOfLines_strict_iff :
    programOfLines true n ls = .ok p ↔
      programOfLines false n ls = .ok p ∧ ∀ line ∈ ls, ¬ IsLoose false line := by
  induction ls generalizing n p with
  | nil => simp [programOfLines]
  | cons line ls ih =>
    simp only [programOfLines_cons_eq_ok_iff, instructionOfLine_strict_iff, ih,
      List.forall_mem_cons]
    grind

/-! ### Sources with labels -/

theorem add_instruction_eq_ok_iff (read : Statement.ofLine line = .instruction tokens) :
    d.add isStrict n line = .ok d' ↔
      ∃ i, instructionOfTokens isStrict tokens = .ok i ∧ d.push (.filled i) = d' := by
  simp only [Draft.add, read]
  cases instructionOfTokens isStrict tokens <;> simp

theorem add_strict_iff :
    d.add true n line = .ok d' ↔ d.add false n line = .ok d' ∧ ¬ IsLoose true line := by
  generalize read : Statement.ofLine line = statement
  cases read ▸ reads_ofLine line with
  | nothing code | declaration code => simp [Draft.add, read, IsLoose, instructionTokens?, code]
  | jump refers =>
    simp [Draft.add, read, IsLoose, instructionTokens?, refers.code, refers.tokens, not_loose_pair]
  | instruction code =>
    have loose : IsLoose true line ↔ Loose line.trim.words := by
      simp [IsLoose, instructionTokens?, code]
    simp only [add_instruction_eq_ok_iff read, instructionOfTokens, loose]
    simp only [Bool.false_eq_true, reduceIte, strict_eq_ok_iff]
    grind

theorem addAll_cons_eq_ok_iff :
    d.addAll isStrict n (line :: ls) = .ok d' ↔
      ∃ e, d.add isStrict n line = .ok e ∧ e.addAll isStrict (n + 1) ls = .ok d' := by
  rw [Draft.addAll]
  cases d.add isStrict n line <;> simp

theorem addAll_strict_iff :
    d.addAll true n ls = .ok d' ↔
      d.addAll false n ls = .ok d' ∧ ∀ line ∈ ls, ¬ IsLoose true line := by
  induction ls generalizing n d with
  | nil => simp [Draft.addAll]
  | cons line ls ih =>
    simp only [addAll_cons_eq_ok_iff, List.forall_mem_cons, add_strict_iff, ih]
    grind

/-! ### Sources -/

theorem assemble_labels_eq_ok_iff {source : Text} :
    assemble ⟨isStrict, true⟩ source = .ok p ↔
      ∃ d : Draft, Draft.addAll isStrict 1 {} (lines source) = .ok d ∧ d.program = .ok p := by
  simp only [assemble]
  cases Draft.addAll isStrict 1 {} (lines source) <;> simp

/-- A source is a program in the strict way if and only if it is the same program in the lenient way
and no line of it is loose. -/
theorem assemble_strict_iff {source : Text} :
    assemble ⟨true, labels⟩ source = .ok p ↔
      assemble ⟨false, labels⟩ source = .ok p ∧ ∀ line ∈ lines source, ¬ IsLoose labels line := by
  cases labels with
  | false => simpa [assemble] using programOfLines_strict_iff
  | true =>
    simp only [assemble_labels_eq_ok_iff, addAll_strict_iff]
    grind

/-- The tokens of an instruction can be joined by single spaces and cut again. -/
theorem instructionOfLine_joined (h : instructionTokens? labels line = some tokens) :
    instructionOfLine isStrict (Text.joined tokens) = instructionOfTokens isStrict tokens := by
  unfold instructionTokens? at h
  split at h
  · obtain ⟨-, rfl⟩ : isCode line = true ∧ line.trim.words = tokens := by simpa using h
    have solid : ∀ t ∈ line.trim.words, t.Solid := fun _ => Text.solid_of_mem_words
    by_cases none : line.trim.words = []
    · cases isStrict <;> simp [none, Text.joined, instructionOfLine, instructionOfTokens, strict,
        lenient]
    · rw [instructionOfLine, if_neg (Text.joined_ne_nil solid none), Text.split_joined solid none]
  · obtain ⟨nonempty, rfl⟩ : line ≠ [] ∧ line.split ' ' = tokens := by simpa using h
    rw [Text.joined_split, instructionOfLine, if_neg nonempty]

/-- Whatever the strict way makes a program, the lenient way makes the same program; a source that
only the lenient way accepts has a loose line. Conversely, no source with a loose line is a program
in the strict way. -/
theorem strict_assembly_narrows (labels : Bool) (source : Text) :
    (∀ p, assemble ⟨true, labels⟩ source = .ok p → assemble ⟨false, labels⟩ source = .ok p) ∧
    ∃ ls, HasLines source ls ∧
      (∀ p e, assemble ⟨false, labels⟩ source = .ok p → assemble ⟨true, labels⟩ source = .error e →
        ∃ line ∈ ls, ∃ tokens, instructionTokens? labels line = some tokens ∧ Loose tokens) ∧
      ∀ line ∈ ls, ∀ tokens, instructionTokens? labels line = some tokens →
        (Loose tokens → ∃ e, assemble ⟨true, labels⟩ source = .error e) ∧
        ∀ isStrict, instructionOfTokens isStrict tokens =
          instructionOfLine isStrict (Text.joined tokens) := by
  refine ⟨fun p accepted => (assemble_strict_iff.1 accepted).1, lines source,
    hasLines_lines source, ?_, ?_⟩
  · intro p e accepted refused
    by_contra tight
    have accepted' : assemble ⟨true, labels⟩ source = .ok p :=
      assemble_strict_iff.2 ⟨accepted, fun line mem loose => tight ⟨line, mem, loose⟩⟩
    simp [refused] at accepted'
  · intro line mem tokens read
    refine ⟨fun loose => ?_, fun _ => (instructionOfLine_joined read).symm⟩
    cases assembled : assemble ⟨true, labels⟩ source with
    | error e => exact ⟨e, rfl⟩
    | ok p => exact absurd ⟨tokens, read, loose⟩ ((assemble_strict_iff.1 assembled).2 line mem)

/-- Two spaces in a row leave an empty token between them without labels, but not with labels. -/
theorem assemble_two_spaces :
    let source := Text.ofString "psh  1\nend"
    let ls := ["psh  1", "end"].map Text.ofString
    let p : Program := [.of .push 1, .bare .halt]
    assemble ⟨false, false⟩ source = .ok [.bare .push, .bare .halt] ∧
      assemble ⟨true, false⟩ source = .error ⟨1, .tooManyTokens 3⟩ ∧
      HasLines source ls ∧
      (∃ line ∈ ls, ∃ tokens, instructionTokens? false line = some tokens ∧ Loose tokens) ∧
      assemble ⟨true, true⟩ source = .ok p ∧ assemble ⟨false, true⟩ source = .ok p := by
  intro source ls p
  have accepted : assemble ⟨false, false⟩ source = .ok [.bare .push, .bare .halt] := by decide
  have refused : assemble ⟨true, false⟩ source = .error ⟨1, .tooManyTokens 3⟩ := by decide
  have labelled : assemble ⟨true, true⟩ source = .ok p := by decide
  have has : HasLines source ls := hasLines_iff.2 (by decide)
  obtain ⟨-, _, lines, loose, -⟩ := strict_assembly_narrows false source
  obtain rfl := has.unique lines
  obtain ⟨same, -⟩ := strict_assembly_narrows true source
  exact ⟨accepted, refused, has, loose _ _ accepted refused, labelled, same p labelled⟩

end StackMachine.Assembly
