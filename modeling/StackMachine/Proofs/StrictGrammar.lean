import Mathlib.Data.Nat.Digits.Defs
import StackMachine.Proofs.AssemblyRoundTrip
import StackMachine.Proofs.StrictAssembly

/-!
# The grammar of strict sources

What the strict way accepts without labels, said without its tokens and checks: a line is empty, or
a mnemonic that stands alone, or a mnemonic and a numeral with one space between them. Every line is
one instruction. A source with other lines is refused at the first of them.
-/

namespace StackMachine

/-! ### Numerals -/

namespace Numeral

variable {bits bound m n : Nat} {t : Text} {l : Letter} {d : Nat} {ds : List Nat}

/-- The text of decimal digits, first digit first. -/
def written (ds : List Nat) : Text := Text.ofChars (ds.map Nat.digitChar)

/-- The number that decimal digits stand for, first digit first. -/
def magnitude (ds : List Nat) : Nat := Nat.ofDigits 10 ds.reverse

/-- There is at least one digit, and all are decimal ones. -/
def IsDecimal (ds : List Nat) : Prop := ds ≠ [] ∧ ∀ d ∈ ds, d < 10

/-- A text is a numeral for a number: one or more decimal digits, of which the first ones may be
zeros, possibly with a sign in front. -/
inductive Denotes : Text → Int → Prop where
  | plain {ds : List Nat} : IsDecimal ds → Denotes (written ds) (magnitude ds)
  | plus {ds : List Nat} : IsDecimal ds → Denotes (.char '+' :: written ds) (magnitude ds)
  | minus {ds : List Nat} : IsDecimal ds → Denotes (.char '-' :: written ds) (-magnitude ds)

theorem magnitude_cons (d : Nat) (ds : List Nat) :
    magnitude (d :: ds) = d * 10 ^ ds.length + magnitude ds := by
  rw [magnitude, List.reverse_cons, Nat.ofDigits_append, Nat.ofDigits_singleton,
    List.length_reverse, ← magnitude, Nat.add_comm, Nat.mul_comm]

/-- A digit counts for the value before it. -/
theorem shift_magnitude (n d : Nat) (ds : List Nat) :
    n * 10 ^ (d :: ds).length + magnitude (d :: ds) =
      (n * 10 + d) * 10 ^ ds.length + magnitude ds := by
  rw [magnitude_cons, List.length_cons, Nat.pow_succ']
  ring

theorem digit?_eq_some_iff : l.digit? = some d ↔ d < 10 ∧ l = .char d.digitChar := by
  constructor
  · intro h
    match l with
    | .stray _ => cases h
    | .char c =>
      have range : (48 ≤ c.toNat ∧ c.toNat ≤ 57) ∧ c.toNat - 48 = d := by
        simpa [Letter.digit?, Char.le_def, UInt32.le_iff_toNat_le] using h
      have lt : d < 10 := by omega
      refine ⟨lt, congrArg _ (Char.toNat_inj.1 ?_)⟩
      rw [Nat.toNat_digitChar_of_lt_ten lt]
      omega
  · rintro ⟨lt, rfl⟩
    exact digit?_digitChar lt

/-- Digits after a value are read if they are decimal and the number as a whole is small enough. -/
theorem readDigits_eq_ok_iff (small : n ≤ bound) :
    readDigits bound n t = .ok m ↔ ∃ ds, (∀ d ∈ ds, d < 10) ∧ t = written ds ∧
      m = n * 10 ^ ds.length + magnitude ds ∧ m ≤ bound := by
  induction t generalizing n with
  | nil =>
    constructor
    · rintro ⟨⟩
      exact ⟨[], by simp, rfl, by simp [magnitude], small⟩
    · rintro ⟨ds, -, empty, rfl, -⟩
      obtain rfl : ds = [] := by simpa [written, Text.ofChars] using empty.symm
      simp [readDigits, magnitude]
  | cons l t ih =>
    constructor
    · intro h
      unfold readDigits at h
      split at h
      · cases h
      next d digit =>
        split at h
        next fits =>
          obtain ⟨lt, rfl⟩ := digit?_eq_some_iff.1 digit
          obtain ⟨ds, decimal, rfl, value, le⟩ := (ih fits).1 h
          refine ⟨d :: ds, List.forall_mem_cons.2 ⟨lt, decimal⟩, rfl, ?_, le⟩
          rw [value, shift_magnitude]
        · cases h
    · rintro ⟨ds, decimal, same, value, le⟩
      cases ds with
      | nil => simp [written, Text.ofChars] at same
      | cons d ds =>
        obtain ⟨lt, decimal⟩ := List.forall_mem_cons.1 decimal
        obtain ⟨rfl, rfl⟩ := List.cons.inj same
        rw [shift_magnitude] at value
        -- the digits that follow make the number no smaller
        have fits : n * 10 + d ≤ bound := by
          have pos : 0 < 10 ^ ds.length := Nat.pow_pos (by decide)
          have := Nat.le_mul_of_pos_right (n * 10 + d) pos
          omega
        simp only [readDigits, digit?_digitChar lt, fits]
        exact (ih fits).2 ⟨ds, decimal, rfl, value, le⟩

def withSign (negative : Bool) (n : Nat) : Int := if negative then -n else n

/-- A numeral is a sign and digits. -/
theorem denotes_iff {v : Int} :
    Denotes t v ↔ ∃ ds, IsDecimal ds ∧ (sign t).2 = written ds ∧
      v = withSign (sign t).1 (magnitude ds) := by
  constructor
  · rintro (@⟨ds, decimal⟩ | @⟨ds, decimal⟩ | @⟨ds, decimal⟩)
    · have isDigit : ∀ d < 10, d.digitChar.isDigit := by decide
      have unsigned : sign (written ds) = (false, written ds) := by
        refine sign_of_digits fun c hc => ?_
        obtain ⟨d, hd, rfl⟩ := List.mem_map.1 hc
        exact isDigit d (decimal.2 d hd)
      rw [unsigned]
      exact ⟨ds, decimal, rfl, rfl⟩
    · exact ⟨ds, decimal, rfl, rfl⟩
    · exact ⟨ds, decimal, rfl, rfl⟩
  · rintro ⟨ds, decimal, digits, rfl⟩
    unfold sign at digits ⊢
    split at digits <;> dsimp only at digits <;> subst digits
    · exact .minus decimal
    · exact .plus decimal
    · exact .plain decimal

theorem cast_one_shiftLeft (k : Nat) : ((1 <<< k : Nat) : Int) = 2 ^ k := by
  simp [Nat.one_shiftLeft]

theorem signed_eq_ok_iff {negative : Bool} {v : Int} :
    signed bits negative n = .ok v ↔
      v = withSign negative n ∧ -2 ^ (bits - 1) ≤ v ∧ v < 2 ^ (bits - 1) := by
  have pos : 0 < 1 <<< (bits - 1) := by simp [Nat.one_shiftLeft]
  unfold signed withSign
  rw [← cast_one_shiftLeft]
  generalize 1 <<< (bits - 1) = h at pos
  cases negative with
  | true => by_cases fits : n ≤ h <;> simp [fits] <;> omega
  | false => by_cases fits : n < h <;> simp [fits] <;> omega

/-- Numerals are read if their number fits the word. -/
theorem read_eq_ok_iff {v : Int} (wide : 0 < bits) :
    read bits t = .ok v ↔ Denotes t v ∧ -2 ^ (bits - 1) ≤ v ∧ v < 2 ^ (bits - 1) := by
  rw [denotes_iff]
  rcases hs : sign t with ⟨negative, digits⟩
  constructor
  · intro h
    unfold read at h
    rw [hs] at h
    cases digits with
    | nil => cases h
    | cons l digits =>
      cases hd : readDigits (1 <<< bits - 1) 0 (l :: digits) with
      | error e => simp [hd] at h
      | ok m =>
        simp only [hd] at h
        obtain ⟨ds, decimal, same, value, -⟩ := (readDigits_eq_ok_iff (Nat.zero_le _)).1 hd
        have nonempty : ds ≠ [] := by
          rintro rfl
          cases same
        obtain ⟨rfl, range⟩ := signed_eq_ok_iff.1 h
        rw [Nat.zero_mul, Nat.zero_add] at value
        exact ⟨⟨ds, ⟨nonempty, decimal⟩, same, by rw [value]⟩, range⟩
  · rintro ⟨⟨ds, ⟨nonempty, decimal⟩, rfl, rfl⟩, range⟩
    have double : 1 <<< bits = 2 * 1 <<< (bits - 1) := by
      rw [Nat.one_shiftLeft, Nat.one_shiftLeft, ← Nat.pow_succ']
      congr 1
      omega
    have small : magnitude ds ≤ 1 <<< bits - 1 := by
      unfold withSign at range
      rw [← cast_one_shiftLeft] at range
      split at range <;> omega
    have digits : readDigits (1 <<< bits - 1) 0 (written ds) = .ok (magnitude ds) :=
      (readDigits_eq_ok_iff (Nat.zero_le _)).2 ⟨ds, decimal, rfl, by simp, small⟩
    have some : written ds ≠ [] := by simpa [written, Text.ofChars] using nonempty
    rw [read_of_sign hs some digits]
    exact signed_eq_ok_iff.2 ⟨rfl, range⟩

end Numeral

/-! ### Lines -/

/-- What stands before the first separator is the first piece. -/
theorem Text.head?_split (c : Char) (t : Text) :
    (t.split c).head? = some (t.takeWhile (· ≠ .char c)) := by
  unfold split
  induction t with
  | nil => rfl
  | cons l t ih =>
    by_cases separator : l = .char c
    · simp [splitOnP, separator]
    · cases h : splitOnP (· == .char c) t with
      | nil => simp [h] at ih
      | cons piece pieces => simp_all [splitOnP]

namespace Assembly

variable {isStrict : Bool} {line token : Text} {name : String} {op : Opcode} {i : Instruction}
  {p : Program} {ls : List Text} {n : Nat} {o : Objection} {e : AssembleError} {v : Int32}

/-- The mnemonics that may stand alone. -/
def loneWords : List (String × Opcode) :=
  [("sum", .add), ("sub", .subtract), ("mul", .multiply), ("div", .divide), ("eq", .equal),
    ("end", .halt)]

/-- All mnemonics; each of them may have an operand. -/
def vocabulary : List (String × Opcode) :=
  [("psh", .push), ("dplc", .duplicate), ("jmp", .jump), ("jif", .jumpIfTrue)] ++ loneWords

/-- The lines of the grammar, with their instructions. -/
inductive Expresses : Text → Instruction → Prop where
  | nothing : Expresses [] (.of .halt 0)
  | lone {name : String} {op : Opcode} : (name, op) ∈ loneWords →
      Expresses (Text.ofString name) (.of op 0)
  | operand {name : String} {op : Opcode} {numeral : Text} {v : Int32} : (name, op) ∈ vocabulary →
      Numeral.Denotes numeral v.toInt →
      Expresses (Text.ofString name ++ .char ' ' :: numeral) (.of op v)

/-- The line begins with a mnemonic, up to its first space or as a whole. -/
def Known (line : Text) : Prop :=
  ∃ name op, (name, op) ∈ vocabulary ∧ line.takeWhile (· ≠ .char ' ') = Text.ofString name

theorem mem_vocabulary_iff : (name, op) ∈ vocabulary ↔ name = op.mnemonic := by
  cases op <;> simp [vocabulary, loneWords, Opcode.mnemonic]

theorem mem_loneWords_iff :
    (name, op) ∈ loneWords ↔ name = op.mnemonic ∧ op.takesOperand = false := by
  cases op <;> simp [loneWords, Opcode.mnemonic, Opcode.takesOperand]

theorem operand_eq_ok_iff : operand token = .ok v ↔ Numeral.Denotes token v.toInt := by
  have wide : 0 < 32 := by decide
  unfold operand
  constructor
  · intro h
    cases hr : Numeral.read 32 token with
    | error e => simp [hr] at h
    | ok n =>
      obtain ⟨denotes, least, most⟩ := (Numeral.read_eq_ok_iff wide).1 hr
      obtain rfl : Int32.ofInt n = v := by simpa [hr] using h
      rwa [Int32.toInt_ofInt_of_le least most]
  · intro denotes
    rw [(Numeral.read_eq_ok_iff wide).2 ⟨denotes, v.le_toInt, v.toInt_lt⟩]
    simp

theorem withOperand_eq_ok_iff :
    withOperand op token = .ok i ↔ ∃ v : Int32, Numeral.Denotes token v.toInt ∧ i = .of op v := by
  simp only [← operand_eq_ok_iff, withOperand]
  cases operand token <;> simp [eq_comm]

/-- No letter of a mnemonic or of a numeral is a space. -/
theorem space_not_mem_mnemonic (op : Opcode) : .char ' ' ∉ Text.ofString op.mnemonic := by
  intro h
  exact absurd ((solid_mnemonic op).2 _ h) (by decide)

theorem space_not_mem_of_denotes {n : Int} (h : Numeral.Denotes token n) : .char ' ' ∉ token := by
  have digits : ∀ ds, Numeral.IsDecimal ds → Letter.char ' ' ∉ Numeral.written ds := by
    intro ds decimal h
    have plain : ∀ d < 10, Nat.digitChar d ≠ ' ' := by decide
    obtain ⟨c, hc, same⟩ := List.mem_map.1 h
    obtain ⟨d, hd, rfl⟩ := List.mem_map.1 hc
    exact plain d (decimal.2 d hd) (Letter.char.inj same)
  cases h with
  | plain decimal => exact digits _ decimal
  | plus decimal | minus decimal => simpa using digits _ decimal

theorem Expresses.instructionOfLine (h : Expresses line i) :
    instructionOfLine true line = .ok i := by
  cases h with
  | nothing => rfl
  | @lone name op lone =>
    obtain ⟨rfl, takes⟩ := mem_loneWords_iff.1 lone
    rw [Assembly.instructionOfLine, if_neg (solid_mnemonic op).1,
      Text.split_of_not_mem (space_not_mem_mnemonic op)]
    simp [instructionOfTokens, strict, takes, Instruction.bare]
  | @operand name op numeral v word denotes =>
    obtain rfl := mem_vocabulary_iff.1 word
    rw [Assembly.instructionOfLine, if_neg (by simp), Text.split_append_cons,
      Text.split_of_not_mem (space_not_mem_mnemonic op),
      Text.split_of_not_mem (space_not_mem_of_denotes denotes)]
    simp [instructionOfTokens, strict, withOperand, operand_eq_ok_iff.2 denotes]

/-- A line is one of the grammar if and only if the strict way reads it, as the same instruction. -/
theorem instructionOfLine_eq_ok_iff : instructionOfLine true line = .ok i ↔ Expresses line i := by
  refine ⟨fun h => ?_, Expresses.instructionOfLine⟩
  by_cases empty : line = []
  · subst empty
    cases h
    exact .nothing
  rw [instructionOfLine, if_neg empty] at h
  change strict (line.split ' ') = .ok i at h
  rw [← Text.joined_split line]
  rw [← Text.joined_split line] at empty
  generalize line.split ' ' = tokens at h empty
  cases tokens with
  | nil => exact absurd rfl empty
  | cons name operands =>
    cases known : Opcode.ofMnemonic? name with
    | none => simp [strict, known] at h
    | some op =>
      obtain rfl := Opcode.ofMnemonic?_eq_some_iff.1 known
      cases operands with
      | nil =>
        cases takes : op.takesOperand with
        | true => simp [strict, takes] at h
        | false =>
          obtain rfl : Instruction.bare op = i := by simpa [strict, takes] using h
          have lone := Expresses.lone (mem_loneWords_iff.2 ⟨rfl, takes⟩)
          simpa [Text.joined, Instruction.bare] using lone
      | cons token others =>
        cases others with
        | nil =>
          obtain ⟨v, denotes, rfl⟩ : ∃ v : Int32, Numeral.Denotes token v.toInt ∧ i = .of op v := by
            simpa [strict, withOperand_eq_ok_iff] using h
          simpa [Text.joined] using Expresses.operand (mem_vocabulary_iff.2 rfl) denotes
        | cons => simp [strict] at h

theorem known_iff :
    Known line ↔ ∃ op : Opcode, line.takeWhile (· ≠ .char ' ') = Text.ofString op.mnemonic := by
  simp [Known, mem_vocabulary_iff]

theorem kind_of_withOperand (h : withOperand op token = .error o) : o.kind = .invalidInput := by
  cases hr : Numeral.read 32 token with
  | ok n => simp [withOperand, operand, hr] at h
  | error fault =>
    obtain rfl : .badOperand token fault = o := by simpa [withOperand, operand, hr] using h
    rfl

/-- The kind of the objection to a line depends on its first token alone. -/
theorem kind_of_instructionOfLine (h : instructionOfLine true line = .error o) :
    (Known line → o.kind = .invalidInput) ∧ (¬ Known line → o.kind = .unknownOperand) := by
  by_cases empty : line = []
  · simp [instructionOfLine, empty] at h
  rw [instructionOfLine, if_neg empty] at h
  change strict (line.split ' ') = .error o at h
  have first := Text.head?_split ' ' line
  rw [known_iff]
  cases tokens : line.split ' ' with
  | nil => simp [tokens] at first
  | cons name operands =>
    rw [tokens] at h first
    rw [← Option.some.inj first]
    cases known : Opcode.ofMnemonic? name with
    | none =>
      have other := ofMnemonic?_eq_none_iff.1 known
      obtain rfl : .unknownMnemonic name = o := by simpa [strict, known] using h
      refine ⟨?_, fun _ => rfl⟩
      rintro ⟨op, same⟩
      exact absurd same (other op)
    | some op =>
      obtain rfl := Opcode.ofMnemonic?_eq_some_iff.1 known
      refine ⟨fun _ => ?_, fun unknown => absurd ⟨op, rfl⟩ unknown⟩
      cases operands with
      | nil =>
        cases takes : op.takesOperand with
        | true =>
          obtain rfl : .missingOperand op = o := by simpa [strict, takes] using h
          rfl
        | false => simp [strict, takes] at h
      | cons token others =>
        cases others with
        | nil => exact kind_of_withOperand (by simpa [strict] using h)
        | cons =>
          obtain ⟨n, rfl⟩ : ∃ n, .tooManyTokens n = o := ⟨_, by simpa [strict] using h⟩
          rfl

/-! ### Sources -/

theorem programOfLines_eq_ok_iff_forall₂ :
    programOfLines isStrict n ls = .ok p ↔
      List.Forall₂ (fun line i => instructionOfLine isStrict line = .ok i) ls p := by
  induction ls generalizing n p with
  | nil => simp [programOfLines, eq_comm, List.forall₂_nil_left_iff]
  | cons line ls ih =>
    simp only [programOfLines_cons_eq_ok_iff, ih, List.forall₂_cons_left_iff]

theorem programOfLines_eq_ok_iff :
    programOfLines true n ls = .ok p ↔ List.Forall₂ Expresses ls p := by
  simp only [programOfLines_eq_ok_iff_forall₂, instructionOfLine_eq_ok_iff]

/-- Lines that are no program are refused at the first that is no instruction. -/
theorem first_of_programOfLines (h : programOfLines isStrict n ls = .error e) :
    ∃ before line after, ls = before ++ line :: after ∧ e.line = n + before.length ∧
      instructionOfLine isStrict line = .error e.objection ∧
      ∀ l ∈ before, ∃ i, instructionOfLine isStrict l = .ok i := by
  induction ls generalizing n with
  | nil => cases h
  | cons line ls ih =>
    rw [programOfLines] at h
    cases hi : instructionOfLine isStrict line with
    | error o =>
      obtain rfl : ⟨n, o⟩ = e := by simpa [hi] using h
      exact ⟨[], line, ls, rfl, rfl, hi, by simp⟩
    | ok i =>
      cases hp : programOfLines isStrict (n + 1) ls with
      | ok p => simp [hi, hp] at h
      | error e' =>
        obtain rfl : e' = e := by simpa [hi, hp] using h
        obtain ⟨before, line', after, rfl, number, refused, good⟩ := ih hp
        refine ⟨line :: before, line', after, rfl, ?_, refused, ?_⟩
        · rw [number, List.length_cons]
          omega
        · exact List.forall_mem_cons.2 ⟨⟨i, hi⟩, good⟩

theorem report?_failure (e : AssembleError) :
    e.failure.report? = some { e.objection.report with
      detail := "line " ++ toString e.line ++ ": " ++ e.objection.detail } := by
  obtain ⟨line, objection⟩ := e
  cases objection <;> rfl

/-- A source that is refused has a line outside the grammar, and the first such line is refused. -/
theorem first_line_outside (h : programOfLines true 1 ls = .error e) :
    ∃ before line after, ls = before ++ line :: after ∧ (∀ l ∈ before, ∃ i, Expresses l i) ∧
      (∀ i, ¬ Expresses line i) ∧ e.line = before.length + 1 ∧
      instructionOfLine true line = .error e.objection := by
  obtain ⟨before, line, after, all, number, refused, good⟩ := first_of_programOfLines h
  simp only [instructionOfLine_eq_ok_iff] at good
  refine ⟨before, line, after, all, good, fun i inside => ?_, by omega, refused⟩
  rw [inside.instructionOfLine] at refused
  cases refused

/-- Without labels, the strict way accepts exactly the sources all of whose lines are lines of the
grammar, and their instructions, one for each line, are the program. Any other source is refused at
its first other line: with the kind of an unknown operand if that line does not begin with a
mnemonic, and as invalid input if it does. -/
theorem strict_sources_follow_grammar (source : Text) :
    ∃ ls, HasLines source ls ∧
      ((∃ p, assemble { strict := true } source = .ok p) ↔ ∀ line ∈ ls, ∃ i, Expresses line i) ∧
      (∀ p, assemble { strict := true } source = .ok p ↔ List.Forall₂ Expresses ls p) ∧
      ∀ e, assemble { strict := true } source = .error e →
        ∃ before line after, ls = before ++ line :: after ∧
          (∀ l ∈ before, ∃ i, Expresses l i) ∧ (∀ i, ¬ Expresses line i) ∧
          e.line = before.length + 1 ∧
          ∃ r, e.failure.report? = some r ∧ r.phase = .assemble ∧
            r.detail = "line " ++ toString e.line ++ ": " ++ e.objection.detail ∧
            (Known line → r.kind = .invalidInput) ∧ (¬ Known line → r.kind = .unknownOperand) := by
  have accepted (p : Program) : assemble { strict := true } source = .ok p ↔
      List.Forall₂ Expresses (lines source) p := programOfLines_eq_ok_iff
  refine ⟨lines source, hasLines_lines source, ⟨?_, ?_⟩, accepted, ?_⟩
  · rintro ⟨p, h⟩ line mem
    have all := (accepted p).1 h
    obtain ⟨k, lt, rfl⟩ := List.mem_iff_getElem.1 mem
    exact ⟨_, all.get lt (all.length_eq ▸ lt)⟩
  · intro good
    cases h : assemble { strict := true } source with
    | ok p => exact ⟨p, rfl⟩
    | error e =>
      obtain ⟨before, line, after, all, -, outside, -⟩ := first_line_outside h
      obtain ⟨i, inside⟩ := good line (by simp [all])
      exact absurd inside (outside i)
  · intro e h
    obtain ⟨before, line, after, all, good, outside, number, refused⟩ := first_line_outside h
    obtain ⟨known, unknown⟩ := kind_of_instructionOfLine refused
    exact ⟨before, line, after, all, good, outside, number, _, report?_failure e, rfl, rfl, known,
      unknown⟩

/-- A numeral may have a sign and begin with zeros, and an empty line ends the program. -/
example : assemble { strict := true } (Text.ofString "psh +007\r\n\ndiv -2147483648\neq\n") =
    .ok [.of .push 7, .of .halt 0, .of .divide Int32.minValue, .of .equal 0] := by
  decide

end Assembly

end StackMachine
