import StackMachine.Text.Cluster.Class

/-!
# Clusters

A text falls into clusters, the characters that a reader sees. Whether a character belongs to the
cluster before it depends on its class and on how that cluster ends.
-/

namespace StackMachine.Cluster

/-- How a cluster ends, as far as the next character may join it. -/
inductive Ending where
  | plain
  | control
  | prepend
  | leading
  | vowel
  | trailing
  /-- A pictograph and marks on it. -/
  | pictograph
  /-- A pictograph, marks on it and a joiner. -/
  | joined
  /-- The first letter of a flag. -/
  | halfFlag
  deriving DecidableEq, Repr

namespace Ending

/-- Whether a character of this class belongs to the cluster before it. -/
def joins : Ending → Class → Bool
  | control, _ => false
  | _, .control => false
  | prepend, _ => true
  | _, .extend | _, .joiner | _, .spacing => true
  | leading, .leading | leading, .vowel => true
  | leading, .openSyllable | leading, .closedSyllable => true
  | vowel, .vowel | vowel, .trailing => true
  | trailing, .trailing => true
  | joined, .pictograph => true
  | halfFlag, .regional => true
  | _, _ => false

/-- How the text ends after one more character of this class. -/
def after : Ending → Class → Ending
  | pictograph, .extend => pictograph
  | pictograph, .joiner => joined
  | halfFlag, .regional => plain
  | _, .control => control
  | _, .prepend => prepend
  | _, .leading => leading
  | _, .vowel | _, .openSyllable => vowel
  | _, .trailing | _, .closedSyllable => trailing
  | _, .pictograph => pictograph
  | _, .regional => halfFlag
  | _, _ => plain

end Ending

/-- The clusters of a text after a cluster that ends in this way: the characters that still belong
to it, and the clusters after them. -/
def split (e : Ending) : List Char → List Char × List (List Char)
  | [] => ([], [])
  | c :: rest =>
    match split (e.after (classOf c)) rest with
    | (own, others) =>
      if e.joins (classOf c) then (c :: own, others) else ([], (c :: own) :: others)

def clusters (cs : List Char) : List (List Char) :=
  match cs with
  | [] => []
  | c :: rest =>
    match split (Ending.plain.after (classOf c)) rest with
    | (own, others) => (c :: own) :: others

end StackMachine.Cluster
