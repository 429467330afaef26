import StackMachine.Machine.Step

/-!
# Steps in place

Whoever drives a machine changes it where it stands, one field after another. Work that is broken
off leaves the machine as far as it has been changed, so the order of checks and changes matters
here, while `Machine.step` has a machine to return only if the instruction succeeds.
-/

namespace StackMachine.Machine

open Fault (Cause)

/-- Work on a machine. What was changed before the work is broken off stays changed. -/
abbrev Work := EStateM Cause Machine

namespace Work

def push (v : Int32) : Work Unit := modify fun m => { m with stack := v :: m.stack }

def pop : Work Unit := modify fun m => { m with stack := m.stack.tail }

/-- Overwrites the value below the top. -/
def setBelow (v : Int32) : Work Unit := modify fun m => { m with stack := m.stack.set 1 v }

def goTo (pc : Int) : Work Unit := modify fun m => { m with pc }

/-- Moves on to the instruction after this one. -/
def goOn : Work Unit := modify fun m => { m with pc := m.pc + 1 }

def top : Work Int32 := do
  match (← get).stack with
  | v :: _ => return v
  | [] => throw (.missingValues 1 0)

/-- The two topmost values, of which the second is the top. -/
def topTwo : Work (Int32 × Int32) := do
  match (← get).stack with
  | b :: a :: _ => return (a, b)
  | short => throw (.missingValues 2 short.length)

/-- Breaks off if a bound leaves no room for another value. -/
def needRoom : Work Unit := do
  let m ← get
  if 0 < m.limit ∧ m.limit ≤ m.depth then throw (.stackFull m.limit)

def grow (v : Int32) : Work Unit := do
  needRoom
  push v
  goOn

/-- Copies the value `k` places below the top. Whether the stack is deep enough is asked before the
sign of `k`. -/
def copy (k : Int32) : Work Unit := do
  let m ← get
  if deep : m.depth ≤ k.toInt then throw (.tooDeep k m.depth)
  else if negative : k.toInt < 0 then throw (.negativeDepth k)
  else
    have : k.toInt.toNat < m.stack.length := by unfold depth at deep; omega
    grow m.stack[k.toInt.toNat]

/-- Replaces the two topmost values `a` and `b`, of which `b` is the top, by `f a b`. -/
def combine (f : Int32 → Int32 → Except Cause Int32) : Work Unit := do
  let (a, b) ← topTwo
  let v ← MonadExcept.ofExcept (f a b)
  setBelow v
  pop
  goOn

def jump (target : Int32) : Work Unit := do
  let length := (← get).instructions.length
  if target.toInt < 0 ∨ length ≤ target.toInt then throw (.targetOutside target length)
  goTo target.toInt

/-- Takes the top of the stack and jumps if it is one; otherwise leaves it and goes on. -/
def branch (target : Int32) : Work Unit := do
  if (← top) ≠ 1 then goOn
  else
    pop
    goTo target.toInt

def halt : Work Unit := do
  modify fun m => { m with halted := true }
  goOn

def perform (i : Instruction) : Work Unit :=
  match i.opcode? with
  | none => throw .unknownOpcode
  | some .push => grow i.operand
  | some .duplicate => copy i.operand
  | some .add => combine fun a b => .ok (a + b)
  | some .subtract => combine fun a b => .ok (a - b)
  | some .multiply => combine fun a b => .ok (a * b)
  | some .divide => combine quotient
  | some .jump => jump i.operand
  | some .jumpIfTrue => branch i.operand
  | some .equal => combine fun a b => .ok (if a = b then 1 else 0)
  | some .halt => halt

end Work

/-- Executes the next instruction in place: the machine afterwards, and the fault if there was one.
A machine that has halted stays as it is. -/
def attempt (m : Machine) : Machine × Option Fault :=
  if m.halted then (m, none)
  else
    match m.current? with
    | none => (m, some ⟨m.pc, none, .pcOutside m.instructions.length⟩)
    | some i =>
      match (Work.perform i).run m with
      | .ok _ t => (t, none)
      | .error cause t => (t, some ⟨t.pc, some i.tag, cause⟩)

/-- A machine on its way: the steps that succeeded, the fault that ended them and what they wrote to
a log. -/
structure Walk where
  done : Nat := 0
  machine : Machine
  fault : Option Fault := none
  log : Log := #[]

/-- Steps at most `n` times and stops at the first fault. Steps of a machine that has halted
count. -/
def walk (t : Threshold) : Nat → Walk → Walk
  | 0, w => w
  | n + 1, w =>
    let log := w.machine.traceStep t w.log
    match w.machine.attempt with
    | (machine, some f) => { w with machine, fault := some f, log }
    | (machine, none) => walk t n { w with done := w.done + 1, machine, log }

end StackMachine.Machine
