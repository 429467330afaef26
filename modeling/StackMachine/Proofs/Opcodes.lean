import StackMachine.Assembly.Line

/-!
# Tags and mnemonics of opcodes

Tags and mnemonics are one-to-one with the opcodes, and the tags in the set are those below ten.
-/

namespace StackMachine

namespace Opcode

theorem ofTag?_eq_some_iff {t : UInt8} {op : Opcode} : ofTag? t = some op ↔ t = op.tag := by
  constructor
  · intro h
    unfold ofTag? at h
    split at h <;> cases h <;> exact UInt8.toNat_inj.1 ‹_›
  · rintro rfl
    exact ofTag?_tag op

theorem tag_lt (op : Opcode) : op.tag < 10 := by cases op <;> decide

theorem ofTag?_eq_none_iff {t : UInt8} : ofTag? t = none ↔ 10 ≤ t := by
  constructor
  · intro h
    unfold ofTag? at h
    split at h <;> simp_all [UInt8.le_iff_toNat_le]
    omega
  · intro h
    cases ho : ofTag? t with
    | none => rfl
    | some op =>
      rw [ofTag?_eq_some_iff.1 ho] at h
      exact absurd h (UInt8.not_le.2 (tag_lt op))

theorem exists_ofTag?_iff {t : UInt8} : (∃ op, ofTag? t = some op) ↔ t < 10 := by
  rw [← UInt8.not_le, ← ofTag?_eq_none_iff]
  exact Option.ne_none_iff_exists'.symm

@[simp] theorem ofMnemonic?_mnemonic (op : Opcode) :
    ofMnemonic? (Text.ofString op.mnemonic) = some op := by
  cases op <;> decide

end Opcode

theorem Instruction.opcode?_eq_some_iff {i : Instruction} {op : Opcode} :
    i.opcode? = some op ↔ i = .of op i.operand := by
  cases i
  simp [opcode?, of, Opcode.ofTag?_eq_some_iff]

@[simp] theorem Instruction.operand_of (op : Opcode) (v : Int32) :
    (Instruction.of op v).operand = v := rfl

@[simp] theorem Instruction.opcode?_of (op : Opcode) (v : Int32) :
    (Instruction.of op v).opcode? = some op := Opcode.ofTag?_tag op

end StackMachine
