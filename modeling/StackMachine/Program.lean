import StackMachine.Opcode

/-!
# Programs

A program is a list of instructions; the indices of the list are what jumps aim at. An instruction
keeps the tag of its opcode, so that programs with tags outside the instruction set can be held,
listed and refused.
-/

namespace StackMachine

/-- A tag and the operand that goes with it. Opcodes that take no operand ignore it. -/
structure Instruction where
  tag : UInt8
  operand : Int32
  deriving DecidableEq, Repr, Inhabited

abbrev Program := List Instruction

namespace Instruction

def of (op : Opcode) (operand : Int32) : Instruction := ⟨op.tag, operand⟩

/-- An instruction of an opcode that ignores its operand. -/
def bare (op : Opcode) : Instruction := of op 0

def opcode? (i : Instruction) : Option Opcode := Opcode.ofTag? i.tag

/-- Whether the operand means anything to the instruction. -/
def takesOperand (i : Instruction) : Bool :=
  match i.opcode? with
  | some op => op.takesOperand
  | none => false

def name (i : Instruction) : String := tagName i.tag

/-- The name, followed by the operand if that means anything. -/
def render (i : Instruction) : String :=
  if i.takesOperand then i.name ++ " " ++ toString i.operand.toInt else i.name

def push (v : Int32) : Instruction := of .push v

/-- Copies the value that lies `k` places below the top. -/
def duplicate (k : Int32) : Instruction := of .duplicate k

def add : Instruction := bare .add
def subtract : Instruction := bare .subtract
def multiply : Instruction := bare .multiply
def divide : Instruction := bare .divide
def jump (target : Int32) : Instruction := of .jump target
def jumpIfTrue (target : Int32) : Instruction := of .jumpIfTrue target
def equal : Instruction := bare .equal
def halt : Instruction := bare .halt

/-- One instruction of each opcode, in the order of the tags; those that take an operand get `n`. -/
def samples (n : Int32) : Program :=
  [push n, duplicate n, add, subtract, multiply, divide, jump n, jumpIfTrue n, equal, halt]

end Instruction

namespace Program

/-- One line for each instruction, with its index in four digits or more. -/
def render (p : Program) : String :=
  String.join (p.mapIdx fun i instruction =>
    Numeral.padLeft '0' 4 (toString i) ++ ": " ++ instruction.render ++ "\n")

end Program

end StackMachine
