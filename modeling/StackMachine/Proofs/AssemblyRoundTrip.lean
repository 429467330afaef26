import StackMachine.Proofs.LineEndings
import StackMachine.Proofs.Opcodes

/-!
# Assembling a disassembled program

The assembly of a program is read back in every mode. A line is a mnemonic and possibly a numeral
with one space between them, so both ways to cut it into tokens give the same tokens, and a numeral
is never taken for a label.
-/

namespace StackMachine

namespace Assembly

/-! ### Numerals and mnemonics as tokens -/

theorem toNat_of_mem_decimal {c : Char} {n : Int} (h : c ∈ Numeral.decimal n) :
    c.toNat = 45 ∨ 48 ≤ c.toNat ∧ c.toNat ≤ 57 := by
  have digit : c ∈ Nat.toDigits 10 n.natAbs → 48 ≤ c.toNat ∧ c.toNat ≤ 57 := by
    intro hc
    have := Nat.isDigit_of_mem_toDigits (by decide) (by decide) hc
    simpa [Char.isDigit, UInt32.le_iff_toNat_le] using this
  unfold Numeral.decimal at h
  split at h
  · obtain rfl | hc := List.mem_cons.1 h
    · exact .inl rfl
    · exact .inr (digit hc)
  · exact .inr (digit h)

theorem decimal_ne_nil (n : Int) : Numeral.decimal n ≠ [] := by
  unfold Numeral.decimal
  split <;> simp

theorem solid_decimal (n : Int) : (Text.ofChars (Numeral.decimal n)).Solid := by
  refine ⟨by simpa [Text.ofChars] using decimal_ne_nil n, fun l hl => ?_⟩
  obtain ⟨c, hc, rfl⟩ := List.mem_map.1 hl
  have := toNat_of_mem_decimal hc
  simp [Letter.isBlank, isBlank]
  omega

/-- A numeral begins with a minus or a digit, which no label does. -/
theorem isLabel_decimal (n : Int) : isLabel (Text.ofChars (Numeral.decimal n)) = false := by
  obtain ⟨c, cs, hc⟩ := List.exists_cons_of_ne_nil (decimal_ne_nil n)
  have := toNat_of_mem_decimal (c := c) (n := n) (by simp [hc])
  have start : isLabelStart c = false := by
    have underscore : c ≠ '_' := by rintro rfl; exact absurd this (by decide)
    simp [isLabelStart, Char.le_def, UInt32.le_iff_toNat_le, underscore]
    omega
  simp [hc, Text.ofChars, isLabel, start]

theorem solid_mnemonic (op : Opcode) : (Text.ofString op.mnemonic).Solid := by
  unfold Text.Solid
  cases op <;> decide

/-! ### The line of an instruction -/

/-- The instruction with its tag replaced by that of the opcode it is shown as. -/
def shown (i : Instruction) : Instruction := .of (Opcode.ofTag i.tag) i.operand

/-- The mnemonic and, where it is written, the operand. -/
def tokens (i : Instruction) : List Text :=
  let op := Opcode.ofTag i.tag
  Text.ofString op.mnemonic :: if op.takesOperand || i.operand ≠ 0 then
    [Text.ofChars (Numeral.decimal i.operand.toInt)] else []

theorem ofChars_assembly (i : Instruction) :
    Text.ofChars i.assembly = Text.joined (tokens i) := by
  simp only [Instruction.assembly, tokens]
  split <;> simp [Text.ofChars, Text.ofString, Text.joined]

theorem solid_tokens (i : Instruction) : ∀ t ∈ tokens i, t.Solid := by
  intro t ht
  obtain rfl | ht := List.mem_cons.1 ht
  · exact solid_mnemonic _
  · split at ht
    · rw [List.mem_singleton.1 ht]
      exact solid_decimal _
    · cases ht

theorem operand_decimal (v : Int32) :
    operand (Text.ofChars (Numeral.decimal v.toInt)) = .ok v := by
  have hv := Numeral.read_decimal (by decide : 0 < 32) v.le_toInt v.toInt_lt
  rw [operand, hv]
  simp

theorem instructionOfTokens_tokens (isStrict : Bool) (i : Instruction) :
    instructionOfTokens isStrict (tokens i) = .ok (shown i) := by
  simp only [tokens, shown]
  split
  · cases isStrict <;>
      simp [instructionOfTokens, strict, lenient, withOperand, operand_decimal]
  next bare =>
    obtain ⟨plain, zero⟩ : (Opcode.ofTag i.tag).takesOperand = false ∧ i.operand = 0 := by
      simpa using bare
    cases isStrict <;>
      simp [instructionOfTokens, strict, lenient, plain, zero, Instruction.bare]

theorem mem_assembly {l : Letter} {i : Instruction} (h : l ∈ Text.ofChars i.assembly) :
    l = .char ' ' ∨ l.isBlank = false := by
  rw [ofChars_assembly] at h
  obtain h | ⟨t, ht, hl⟩ := Text.mem_joined h
  · exact .inl h
  · exact .inr ((solid_tokens i t ht).2 l hl)

/-- The lines of the assembly of a program are those of its instructions. -/
theorem lines_assembly (p : Program) :
    lines (Text.ofChars p.assembly) = p.map fun i => Text.ofChars i.assembly := by
  induction p with
  | nil => rfl
  | cons i p ih =>
    have newline : .char '\n' ∉ Text.ofChars i.assembly := fun h => by
      obtain h | h := mem_assembly h <;> revert h <;> decide
    have carriage : (Text.ofChars i.assembly).getLast? ≠ some (.char '\r') := fun h => by
      obtain h | h := mem_assembly (List.mem_of_getLast? h) <;> revert h <;> decide
    have split : Text.ofChars (Program.assembly (i :: p)) =
        Text.ofChars i.assembly ++ .char '\n' :: Text.ofChars (Program.assembly p) := by
      simp [Text.ofChars, Program.assembly]
    rw [split, lines_cons_line newline carriage, ih, List.map_cons]

theorem instructionOfLine_assembly (isStrict : Bool) (i : Instruction) :
    instructionOfLine isStrict (Text.ofChars i.assembly) = .ok (shown i) := by
  have nonempty : tokens i ≠ [] := List.cons_ne_nil _ _
  rw [ofChars_assembly, instructionOfLine, if_neg (Text.joined_ne_nil (solid_tokens i) nonempty),
    Text.split_joined (solid_tokens i) nonempty, instructionOfTokens_tokens]

/-- The first letter of a mnemonic begins neither a comment nor a declaration. -/
theorem exists_joined_tokens (i : Instruction) :
    ∃ c u, Text.joined (tokens i) = .char c :: u ∧ c ≠ '#' ∧ c ≠ ':' := by
  have first : ∀ op : Opcode, ∃ c cs, op.mnemonic.toList = c :: cs ∧ c ≠ '#' ∧ c ≠ ':' := by
    intro op
    cases op <;> exact ⟨_, _, rfl, by decide, by decide⟩
  obtain ⟨c, cs, hc, comment, label⟩ := first (Opcode.ofTag i.tag)
  obtain ⟨u, hu⟩ := Text.exists_joined_eq_cons (.char c) (Text.ofChars cs) (tokens i).tail
  refine ⟨c, u, ?_, comment, label⟩
  rw [← hu]
  simp [tokens, Text.ofString, Text.ofChars, hc]

theorem ofTokens_tokens (i : Instruction) :
    Statement.ofTokens (tokens i) = .instruction (tokens i) := by
  simp only [tokens]
  split
  · simp [Statement.ofTokens, isLabel_decimal]
  · rfl

theorem ofLine_assembly (i : Instruction) :
    Statement.ofLine (Text.ofChars i.assembly) = .instruction (tokens i) := by
  obtain ⟨c, u, hc, comment, label⟩ := exists_joined_tokens i
  have statement : Statement.ofLine (Text.ofChars i.assembly) =
      .ofTokens (Text.joined (tokens i)).words := by
    rw [Statement.ofLine, ofChars_assembly, Text.trim_joined (solid_tokens i), hc]
    simp [comment, label]
  rw [statement, Text.words_joined (solid_tokens i), ofTokens_tokens]

/-! ### Whole programs -/

theorem programOfLines_assembly (isStrict : Bool) (n : Nat) (p : Program) :
    programOfLines isStrict n (p.map fun i => Text.ofChars i.assembly) = .ok (p.map shown) := by
  induction p generalizing n with
  | nil => rfl
  | cons i p ih => simp [programOfLines, instructionOfLine_assembly, ih]

/-- Every line fills the next slot; no line declares or uses a label. -/
theorem addAll_assembly (isStrict : Bool) (n : Nat) (d : Draft) (p : Program) :
    ∃ d' : Draft, d.addAll isStrict n (p.map fun i => Text.ofChars i.assembly) = .ok d' ∧
      d'.slots.reverse = d.slots.reverse ++ (p.map shown).map .filled := by
  induction p generalizing n d with
  | nil => exact ⟨d, rfl, by simp⟩
  | cons i p ih =>
    have added : d.add isStrict n (Text.ofChars i.assembly) = .ok (d.push (.filled (shown i))) := by
      simp [Draft.add, ofLine_assembly, instructionOfTokens_tokens]
    obtain ⟨d', hd, slots⟩ := ih (n + 1) (d.push (.filled (shown i)))
    refine ⟨d', ?_, ?_⟩
    · simp only [List.map_cons, Draft.addAll, added, hd]
    · rw [slots]
      simp [Draft.push]

theorem fillSlots_filled (labels : List (Text × Nat)) (p : Program) :
    fillSlots labels (p.map .filled) = .ok p := by
  induction p with
  | nil => rfl
  | cons i p ih => simp [fillSlots, Slot.instruction, ih]

theorem assemble_eq_shown (o : Options) (p : Program) :
    assemble o (Text.ofChars p.assembly) = .ok (p.map shown) := by
  unfold assemble
  rw [lines_assembly]
  split
  · obtain ⟨d, hd, slots⟩ := addAll_assembly o.strict 1 {} p
    rw [hd]
    simp only [Draft.program, slots, List.reverse_nil, List.nil_append, fillSlots_filled]
  · exact programOfLines_assembly o.strict 1 p

theorem shown_eq (i : Instruction) :
    shown i = if i.tag < 10 then i else { i with tag := Opcode.halt.tag } := by
  split
  next low =>
    obtain ⟨op, ho⟩ := Opcode.exists_ofTag?_iff.2 low
    simp [shown, Opcode.ofTag, ho, Instruction.of, ← Opcode.ofTag?_eq_some_iff.1 ho]
  next high =>
    have unknown := Opcode.ofTag?_eq_none_iff.2 (UInt8.not_lt.1 high)
    simp [shown, Opcode.ofTag, unknown, Instruction.of]

/-- In every mode, assembling the assembly of a program gives the program with every tag outside the
set replaced by the one that halts, and so the program itself if all its tags are in the set. -/
theorem assemble_assembly (o : Options) (p : Program) :
    assemble o (Text.ofChars p.assembly) =
      .ok (p.map fun i => if i.tag < 10 then i else { i with tag := Opcode.halt.tag }) ∧
    ((∀ i ∈ p, i.tag < 10) → assemble o (Text.ofChars p.assembly) = .ok p) := by
  have again := assemble_eq_shown o p
  refine ⟨?_, fun hset => ?_⟩
  · rw [again, funext shown_eq]
  · rw [again]
    have same : p.map shown = p.map id :=
      List.map_congr_left fun i hi => by rw [shown_eq, if_pos (hset i hi), id]
    rw [same, List.map_id]

end Assembly

end StackMachine
