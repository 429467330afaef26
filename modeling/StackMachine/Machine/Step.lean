import StackMachine.Log
import StackMachine.Machine
import StackMachine.Machine.Fault

/-!
# Steps

`Machine.step` executes one instruction. Words wrap modulo `2 ^ 32`, and division rounds toward
zero. A jump that is taken on a condition is not checked: a target outside the program faults at the
next step.
-/

namespace StackMachine.Machine

open Fault (Cause)

/-- Moves on to the instruction after this one, with another stack. -/
def next (m : Machine) (stack : List Int32) : Machine := { m with stack, pc := m.pc + 1 }

/-- Pushes a value if there is room for it. -/
def grow (m : Machine) (v : Int32) : Except Cause Machine :=
  if 0 < m.limit ∧ m.limit ≤ m.depth then .error (.stackFull m.limit)
  else .ok (m.next (v :: m.stack))

/-- Copies the value `k` places below the top. -/
def copy (m : Machine) (k : Int32) : Except Cause Machine :=
  if k < 0 then .error (.negativeDepth k)
  else
    match m.stack[k.toInt.toNat]? with
    | some v => m.grow v
    | none => .error (.tooDeep k m.depth)

/-- Replaces the two topmost values `a` and `b`, of which `b` is the top, by `f a b`. -/
def combine (m : Machine) (f : Int32 → Int32 → Except Cause Int32) : Except Cause Machine :=
  match m.stack with
  | b :: a :: rest =>
    match f a b with
    | .ok v => .ok (m.next (v :: rest))
    | .error e => .error e
  | short => .error (.missingValues 2 short.length)

def quotient (a b : Int32) : Except Cause Int32 :=
  if b = 0 then .error (.divisionByZero a) else .ok (a / b)

def jumpTo (m : Machine) (target : Int32) : Except Cause Machine :=
  let length := m.instructions.length
  if 0 ≤ target.toInt ∧ target.toInt < length then .ok { m with pc := target.toInt }
  else .error (.targetOutside target length)

/-- Takes the top of the stack and jumps if it is one; otherwise leaves it and goes on. -/
def branchTo (m : Machine) (target : Int32) : Except Cause Machine :=
  match m.stack with
  | [] => .error (.missingValues 1 0)
  | v :: rest =>
    if v = 1 then .ok { m with stack := rest, pc := target.toInt } else .ok (m.next m.stack)

def execute (m : Machine) (i : Instruction) : Except Cause Machine :=
  match i.opcode? with
  | none => .error .unknownOpcode
  | some .push => m.grow i.operand
  | some .duplicate => m.copy i.operand
  | some .add => m.combine fun a b => .ok (a + b)
  | some .subtract => m.combine fun a b => .ok (a - b)
  | some .multiply => m.combine fun a b => .ok (a * b)
  | some .divide => m.combine quotient
  | some .jump => m.jumpTo i.operand
  | some .jumpIfTrue => m.branchTo i.operand
  | some .equal => m.combine fun a b => .ok (if a = b then 1 else 0)
  | some .halt => .ok { m with halted := true, pc := m.pc + 1 }

/-- Executes the next instruction. A machine that has halted stays as it is. -/
def step (m : Machine) : Except Fault Machine :=
  if m.halted then .ok m
  else
    match m.current? with
    | none => .error ⟨m.pc, none, .pcOutside m.instructions.length⟩
    | some i =>
      match m.execute i with
      | .ok m' => .ok m'
      | .error cause => .error ⟨m.pc, some i.tag, cause⟩

/-! ### Tracing -/

def loadEntry (p : Option Program) : Log.Entry :=
  { level := .debug, source := "machine", message := "program loaded",
    fields := [("instructions", .number (p.getD []).length)] }

/-- What executing an instruction adds to a log before it has any effect. -/
def stepEntry (m : Machine) (i : Instruction) : Log.Entry :=
  { level := .debug, source := "machine", message := "step",
    fields := [("pc", .number m.pc), ("opcode", .text i.name), ("operand", .number i.operand.toInt),
      ("depth", .number m.depth)] }

def haltEntry (m : Machine) : Log.Entry :=
  { level := .debug, source := "machine", message := "halted",
    fields := [("pc", .number (m.pc + 1)), ("depth", .number m.depth)] }

/-- What a step from this state adds to a log. -/
def stepEntries (m : Machine) : List Log.Entry :=
  if m.halted then []
  else
    match m.current? with
    | none => []
    | some i => m.stepEntry i :: if i.opcode? = some .halt then [m.haltEntry] else []

/-- Adds what a step writes to a log; nothing is put together for a log that would not keep it. -/
def traceStep (m : Machine) (t : Threshold) (log : Log) : Log :=
  if t.keeps .debug then log.write t m.stepEntries else log

def traceLoad (p : Option Program) (t : Threshold) (log : Log) : Log := log.write t [loadEntry p]

end StackMachine.Machine
