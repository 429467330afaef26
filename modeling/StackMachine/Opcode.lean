import StackMachine.Text.Numeral

/-!
# Opcodes

The instruction set has ten opcodes. Each has a tag, the byte that stands for it in an encoded
program; the tags are `0` to `9`, and all other bytes are outside the set.
-/

namespace StackMachine

inductive Opcode where
  | push
  | duplicate
  | add
  | subtract
  | multiply
  | divide
  | jump
  | jumpIfTrue
  | equal
  | halt
  deriving DecidableEq, Repr

namespace Opcode

/-- Every opcode, in the order of the tags. -/
def all : List Opcode :=
  [push, duplicate, add, subtract, multiply, divide, jump, jumpIfTrue, equal, halt]

def tag : Opcode → UInt8
  | push => 0
  | duplicate => 1
  | add => 2
  | subtract => 3
  | multiply => 4
  | divide => 5
  | jump => 6
  | jumpIfTrue => 7
  | equal => 8
  | halt => 9

/-- The opcode that a tag stands for, if it is in the set. -/
def ofTag? (t : UInt8) : Option Opcode :=
  match t.toNat with
  | 0 => some push
  | 1 => some duplicate
  | 2 => some add
  | 3 => some subtract
  | 4 => some multiply
  | 5 => some divide
  | 6 => some jump
  | 7 => some jumpIfTrue
  | 8 => some equal
  | 9 => some halt
  | _ => none

/-- The opcode that a tag is shown as: every tag outside the set halts. -/
def ofTag (t : UInt8) : Opcode := (ofTag? t).getD halt

def name : Opcode → String
  | push => "Push"
  | duplicate => "Duplicate"
  | add => "Add"
  | subtract => "Subtract"
  | multiply => "Multiply"
  | divide => "Divide"
  | jump => "Jump"
  | jumpIfTrue => "JumpIfTrue"
  | equal => "Equal"
  | halt => "End"

def ofName? (s : String) : Option Opcode := all.find? (·.name = s)

/-- Whether the operand of an instruction means anything to this opcode. -/
def takesOperand : Opcode → Bool
  | push | duplicate | jump | jumpIfTrue => true
  | add | subtract | multiply | divide | equal | halt => false

@[simp] theorem ofTag?_tag (op : Opcode) : ofTag? op.tag = some op := by cases op <;> rfl

end Opcode

/-- The name of the opcode, or the tag itself if it is outside the set. -/
def tagName (t : UInt8) : String :=
  match Opcode.ofTag? t with
  | some op => op.name
  | none => "Opcode(0x" ++ Numeral.hexByte t ++ ")"

end StackMachine
