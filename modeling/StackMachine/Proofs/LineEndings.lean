import Mathlib.Data.List.Forall2
import StackMachine.Assembly.Source
import StackMachine.Proofs.TextPieces

/-!
# Where lines end

The lines of a source, said without the way in which they are found. A newline ends a line, and a
carriage return before it belongs to the ending. What follows the last newline is a line only if it
is not empty, and there too a carriage return at the end does not belong to the line.
-/

namespace StackMachine.Assembly

variable {source piece line : Text} {ls ls' : List Text}

/-! ### Lines and their endings -/

/-- What stands between the newlines of a source, without the last piece if it is empty. -/
def pieces (source : Text) : List Text :=
  let all := source.splitOn (.char '\n')
  if all.getLast? = some [] then all.dropLast else all

/-- A piece is a line and the carriage return at its end, or a line as a whole. Only the last of
several carriage returns belongs to the ending. -/
inductive LineOf : Text → Text → Prop where
  | returned (line : Text) : LineOf (line ++ [.char '\r']) line
  | bare {line : Text} : line.getLast? ≠ some (.char '\r') → LineOf line line

def HasLines (source : Text) (ls : List Text) : Prop := List.Forall₂ LineOf (pieces source) ls

theorem lineOf_iff : LineOf piece line ↔ dropReturn piece = line := by
  unfold dropReturn
  constructor
  · rintro (_ | bare)
    · simp
    · rw [if_neg bare]
  · split
    next returned =>
      rintro rfl
      obtain ⟨line, rfl⟩ := List.getLast?_eq_some_iff.1 returned
      rw [List.dropLast_concat]
      exact .returned line
    next bare =>
      rintro rfl
      exact .bare bare

theorem dropFinalEmpty_eq (ls : List Text) :
    dropFinalEmpty ls = if ls.getLast? = some [] then ls.dropLast else ls := by
  fun_induction dropFinalEmpty ls with
  | case1 => rfl
  | case2 => rfl
  | case3 piece other => simp [other]
  | case4 piece others nonempty ih =>
    obtain ⟨next, rest, rfl⟩ := List.exists_cons_of_ne_nil nonempty
    rw [ih, List.getLast?_cons_cons]
    split <;> simp

theorem lines_eq_pieces (source : Text) : lines source = (pieces source).map dropReturn := by
  rw [lines, dropFinalEmpty_eq, Text.split, Text.splitOnP_eq_list]
  rfl

theorem hasLines_iff : HasLines source ls ↔ lines source = ls := by
  have graph : LineOf = fun piece line => dropReturn piece = line := by
    funext piece line
    exact propext lineOf_iff
  rw [HasLines, graph, ← List.forall₂_map_left_iff, List.forall₂_eq_eq_eq, lines_eq_pieces]

theorem hasLines_lines (source : Text) : HasLines source (lines source) := hasLines_iff.2 rfl

theorem HasLines.unique (h : HasLines source ls) (h' : HasLines source ls') : ls' = ls :=
  (hasLines_iff.1 h').symm.trans (hasLines_iff.1 h)

theorem length_lines (source : Text) : (lines source).length = (pieces source).length := by
  rw [lines_eq_pieces, List.length_map]

/-! ### Texts put together at newlines -/

theorem dropFinalEmpty_append (xs : List Text) {ys : List Text} (h : ys ≠ []) :
    dropFinalEmpty (xs ++ ys) = xs ++ dropFinalEmpty ys := by
  rw [dropFinalEmpty_eq, dropFinalEmpty_eq, List.getLast?_append_of_ne_nil _ h,
    List.dropLast_append_of_ne_nil h]
  split <;> rfl

/-- A newline ends the lines before it and begins those after it. -/
theorem lines_append_newline (s t : Text) :
    lines (s ++ .char '\n' :: t) = (s.split '\n').map dropReturn ++ lines t := by
  have nonempty : t.split '\n' ≠ [] := by
    rw [Text.split, Text.splitOnP_eq_list]
    exact List.splitOnP_ne_nil _ _
  rw [lines, Text.split_append_cons, dropFinalEmpty_append _ nonempty, List.map_append, lines]

theorem lines_cons_line {s : Text} (h : .char '\n' ∉ s) (hr : s.getLast? ≠ some (.char '\r'))
    (t : Text) : lines (s ++ .char '\n' :: t) = s :: lines t := by
  rw [lines_append_newline, Text.split_of_not_mem h]
  simp [dropReturn, hr]

/-- The lines of a source that ends in a newline are followed by those of another source. -/
theorem lines_append_lines (a b : Text) :
    lines (a ++ .char '\n' :: b) = lines (a ++ [.char '\n']) ++ lines b := by
  rw [lines_append_newline, lines_append_newline]
  simp [show lines [] = [] from rfl]

end StackMachine.Assembly
