import StackMachine.Failure
import StackMachine.Program

/-!
# Faults

A fault is an instruction that cannot be executed. It says where the instruction stands and what
was wrong, and leaves the machine as it was.
-/

namespace StackMachine

/-- What keeps an instruction from being executed. -/
inductive Fault.Cause where
  /-- There is no instruction at this index in a program of that length. -/
  | pcOutside (length : Nat)
  | stackFull (limit : Nat)
  /-- The stack holds fewer values than the instruction takes. -/
  | missingValues (need held : Nat)
  /-- The value to copy would lie below the bottom of the stack. -/
  | tooDeep (k : Int32) (depth : Nat)
  | negativeDepth (k : Int32)
  | divisionByZero (dividend : Int32)
  | targetOutside (target : Int32) (length : Nat)
  /-- The tag is outside the instruction set. -/
  | unknownOpcode
  deriving DecidableEq, Repr

/-- `tag` belongs to the instruction at `pc`; it is absent if there is no such instruction. -/
structure Fault where
  pc : Int
  tag : Option UInt8
  cause : Fault.Cause
  deriving DecidableEq, Repr

namespace Fault

def Cause.kind : Cause → Kind
  | pcOutside _ => .illegalInstruction
  | stackFull _ => .stackOverflow
  | missingValues _ _ => .stackUnderflow
  | tooDeep _ _ => .stackUnderflow
  | negativeDepth _ => .illegalInstruction
  | divisionByZero _ => .divisionByZero
  | targetOutside _ _ => .illegalInstruction
  | unknownOpcode => .illegalInstruction

def Cause.detail : Cause → String
  | pcOutside length => "pc outside program of length " ++ toString length
  | stackFull limit => "stack limit " ++ toString limit ++ " reached"
  | missingValues need held =>
    "need " ++ toString need ++ " operand(s), have " ++ toString held
  | tooDeep k depth => "depth " ++ toString k.toInt ++ " on stack of " ++ toString depth
  | negativeDepth k => "negative depth " ++ toString k.toInt
  | divisionByZero dividend => "divide " ++ toString dividend.toInt ++ " by zero"
  | targetOutside target length =>
    "jump target " ++ toString target.toInt ++ " outside program of length " ++ toString length
  | unknownOpcode => "opcode outside the instruction set"

def Cause.culprit? : Cause → Option Culprit
  | tooDeep k _ => some (.number k.toInt)
  | negativeDepth k => some (.number k.toInt)
  | divisionByZero dividend => some (.number dividend.toInt)
  | targetOutside target _ => some (.number target.toInt)
  | pcOutside _ | stackFull _ | missingValues _ _ | unknownOpcode => none

def kind (f : Fault) : Kind := f.cause.kind

/-- The name of the opcode, empty if there is no instruction. -/
def opcode (f : Fault) : String :=
  match f.tag with
  | some tag => tagName tag
  | none => ""

def report (f : Fault) : Report :=
  { phase := .execute, kind := f.kind, pc := some f.pc, opcode := f.opcode,
    detail := f.cause.detail, culprit := f.cause.culprit? }

def failure (f : Fault) : Failure := .report f.report

end Fault

end StackMachine
