import StackMachine.Program

/-!
# Machines

A machine holds the state of one run: a stack of 32-bit words, a program, the index of the next
instruction and whether the program has ended. The stack is kept with its top first; `values` shows
it bottom first, as it is listed and stored.
-/

namespace StackMachine

/-- `limit` bounds the number of values on the stack; zero means that there is no bound. A machine
without a program differs from one with an empty program only when it is stored. -/
structure Machine where
  stack : List Int32 := []
  program : Option Program := none
  pc : Int := 0
  limit : Nat := 0
  halted : Bool := false
  deriving DecidableEq, Repr

namespace Machine

/-- A machine that has nothing to run; a bound that is not positive is no bound. -/
def empty (maxStack : Int) : Machine := { limit := maxStack.toNat }

/-- Gives the machine a program and changes nothing else. -/
def load (m : Machine) (p : Option Program) : Machine := { m with program := p }

/-- The instructions of the program, none if there is no program. -/
def instructions (m : Machine) : Program := m.program.getD []

def depth (m : Machine) : Nat := m.stack.length

/-- The stack, bottom first. -/
def values (m : Machine) : List Int32 := m.stack.reverse

/-- The instruction at an index, if the index is in the program. -/
def instructionAt? (m : Machine) (pc : Int) : Option Instruction :=
  if 0 ≤ pc then m.instructions[pc.toNat]? else none

/-- The next instruction, if there is one. -/
def current? (m : Machine) : Option Instruction := m.instructionAt? m.pc

end Machine

end StackMachine
