import StackMachine.Machine

/-!
# Listings

Stacks and programs as they are shown to people, one index and one value or instruction on a line.
-/

namespace StackMachine.Machine

/-- The stack, bottom first. -/
def stackListing (m : Machine) : String :=
  "Stack:\n" ++ (if m.stack.isEmpty then "\tEmpty\n" else "") ++
    String.join (m.values.mapIdx fun i v => "\t" ++ toString i ++ ": " ++ toString v.toInt ++ "\n")

def isNext (m : Machine) (i : Nat) : Bool := m.pc = i && !m.halted

/-- The program, with a mark at the next instruction. -/
def programListing (m : Machine) : String :=
  "Instructions:\n" ++ (if m.instructions.isEmpty then "\tEmpty\n" else "") ++
    String.join (m.instructions.mapIdx fun i instruction =>
      (if m.isNext i then ">" else " ") ++ "\t" ++ toString i ++ ": " ++ instruction.name ++ " " ++
        toString instruction.operand.toInt ++ "\n")

end StackMachine.Machine
