import StackMachine.Machine

/-!
# Snapshots

A snapshot is the state of a machine without the bound on its stack. The stack is bottom first, and
may be absent, as may the program.
-/

namespace StackMachine

structure Snapshot where
  stack : Option (List Int32) := none
  program : Option Program := none
  pc : Int := 0
  halted : Bool := false
  deriving DecidableEq, Repr

namespace Machine

def snapshot (m : Machine) : Snapshot :=
  { stack := some m.values, program := m.program, pc := m.pc, halted := m.halted }

/-- The machine that a snapshot was taken of, with a bound of its own. -/
def restore (s : Snapshot) (maxStack : Int) : Machine :=
  { empty maxStack with
    stack := (s.stack.getD []).reverse
    program := s.program
    pc := s.pc
    halted := s.halted }

end Machine

end StackMachine
