/-!
# Runs of characters

Properties of characters are given by tables of the maximal runs of code points that have them, in
ascending order.
-/

namespace StackMachine

/-- Whether a character lies in one of the runs, given by their first and last code points. -/
def inRuns (runs : Array (Nat × Nat)) (c : Char) : Bool :=
  runs.any fun (first, last) => first ≤ c.toNat && c.toNat ≤ last

end StackMachine
