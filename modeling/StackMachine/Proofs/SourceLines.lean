import StackMachine.Proofs.StrictGrammar

/-!
# Sources line by line

Without labels a line means the same wherever it stands. A source is the instructions of its lines,
and the first line that is none is reported with its number. So sources can be put together at a
newline: the programs are concatenated, and an error in the second source moves by the number of
lines of the first.
-/

namespace StackMachine.Assembly

variable {isStrict : Bool} {ls : List Text} {p : Program} {n : Nat} {e : AssembleError}

/-! ### Lines one after the other -/

/-- The same result, with other numbers for the lines. -/
def renumbered (f : Nat → Nat) : Except AssembleError Program → Except AssembleError Program
  | .ok p => .ok p
  | .error e => .error { e with line := f e.line }

/-- Where the lines begin to be counted matters only for the number of the line reported. -/
theorem programOfLines_add (isStrict : Bool) (n k : Nat) (ls : List Text) :
    programOfLines isStrict (n + k) ls = renumbered (· + k) (programOfLines isStrict n ls) := by
  induction ls generalizing n with
  | nil => rfl
  | cons line ls ih =>
    rw [programOfLines, programOfLines, Nat.add_right_comm, ih]
    cases instructionOfLine isStrict line with
    | error o => rfl
    | ok i => cases programOfLines isStrict (n + 1) ls <;> rfl

theorem programOfLines_append (isStrict : Bool) (n : Nat) (ls ls' : List Text) :
    programOfLines isStrict n (ls ++ ls') = match programOfLines isStrict n ls with
      | .error e => .error e
      | .ok p => match programOfLines isStrict (n + ls.length) ls' with
        | .error e => .error e
        | .ok q => .ok (p ++ q) := by
  induction ls generalizing n with
  | nil =>
    rw [List.nil_append, programOfLines]
    cases programOfLines isStrict n ls' <;> rfl
  | cons line ls ih =>
    rw [List.cons_append, programOfLines, programOfLines, ih, List.length_cons,
      Nat.add_comm ls.length, ← Nat.add_assoc]
    cases instructionOfLine isStrict line with
    | error o => rfl
    | ok i =>
      cases programOfLines isStrict (n + 1) ls with
      | error e => rfl
      | ok p => cases programOfLines isStrict (n + 1 + ls.length) ls' <;> rfl

theorem programOfLines_eq_error_iff :
    programOfLines isStrict n ls = .error e ↔
      ∃ before line after, ls = before ++ line :: after ∧
        (∀ l ∈ before, ∃ i, instructionOfLine isStrict l = .ok i) ∧
        instructionOfLine isStrict line = .error e.objection ∧ e.line = n + before.length := by
  constructor
  · intro h
    obtain ⟨before, line, after, all, number, refused, good⟩ := first_of_programOfLines h
    exact ⟨before, line, after, all, good, refused, number⟩
  · rintro ⟨before, line, after, rfl, good, refused, number⟩
    obtain ⟨p, hp⟩ : ∃ p, programOfLines isStrict n before = .ok p := by
      cases hp : programOfLines isStrict n before with
      | ok p => exact ⟨p, rfl⟩
      | error e' =>
        obtain ⟨before', line', after', all, -, refused', -⟩ := first_of_programOfLines hp
        obtain ⟨i, hi⟩ := good line' (by simp [all])
        simp [hi] at refused'
    obtain ⟨number', o⟩ := e
    subst number
    rw [programOfLines_append, hp, programOfLines, refused]

/-! ### Sources one after the other -/

theorem assemble_of_no_labels (isStrict : Bool) (source : Text) :
    assemble ⟨isStrict, false⟩ source = programOfLines isStrict 1 (lines source) := rfl

theorem assemble_append (isStrict : Bool) (a b : Text) :
    assemble ⟨isStrict, false⟩ (a ++ .char '\n' :: b) =
      match assemble ⟨isStrict, false⟩ (a ++ [.char '\n']) with
      | .error e => .error e
      | .ok p => match renumbered (· + p.length) (assemble ⟨isStrict, false⟩ b) with
        | .error e => .error e
        | .ok q => .ok (p ++ q) := by
  simp only [assemble_of_no_labels]
  rw [lines_append_lines, programOfLines_append]
  cases first : programOfLines isStrict 1 (lines (a ++ [.char '\n'])) with
  | error e => rfl
  | ok p =>
    have length := (programOfLines_eq_ok_iff_forall₂.1 first).length_eq
    dsimp only
    rw [programOfLines_add, length]

/-! ### Numbered failures -/

/-- The second failure is the first with the number of a line in front of the detail of its report;
its other fields and its cause are the same. -/
structure Numbers (n : Nat) (f g : Failure) : Prop where
  report : ∃ r, f.report? = some r ∧
    g.report? = some { r with detail := "line " ++ toString n ++ ": " ++ r.detail }
  cause : g.cause? = f.cause?

theorem numbers_failure (e : AssembleError) : Numbers e.line e.objection.failure e.failure := by
  obtain ⟨n, o⟩ := e
  refine ⟨⟨o.report, ?_, report?_failure _⟩, ?_⟩ <;> cases o <;> rfl

/-- Without labels a source is the instructions of its lines, which end with newlines, possibly with
a carriage return before them. The first line that is no instruction is reported: the failure is
that of the line by itself, with the number of the line. So two sources with a newline between them
give the first program followed by the second. An error in the first source stays as it is, and an
error in the second alone only moves by the number of instructions before it. -/
theorem sources_line_by_line (isStrict : Bool) :
    (∀ source, ∃ ls, HasLines source ls ∧
      (∀ p, assemble ⟨isStrict, false⟩ source = .ok p ↔
        List.Forall₂ (fun line i => instructionOfLine isStrict line = .ok i) ls p) ∧
      ∀ e, assemble ⟨isStrict, false⟩ source = .error e ↔
        ∃ before line after, ls = before ++ line :: after ∧
          (∀ l ∈ before, ∃ i, instructionOfLine isStrict l = .ok i) ∧
          instructionOfLine isStrict line = .error e.objection ∧ e.line = before.length + 1) ∧
    (∀ e : AssembleError, Numbers e.line e.objection.failure e.failure) ∧
    ∀ a b,
      (∀ p q, assemble ⟨isStrict, false⟩ (a ++ [.char '\n']) = .ok p →
        assemble ⟨isStrict, false⟩ b = .ok q →
        assemble ⟨isStrict, false⟩ (a ++ .char '\n' :: b) = .ok (p ++ q)) ∧
      (∀ e, assemble ⟨isStrict, false⟩ (a ++ [.char '\n']) = .error e →
        assemble ⟨isStrict, false⟩ (a ++ .char '\n' :: b) = .error e) ∧
      ∀ p e, assemble ⟨isStrict, false⟩ (a ++ [.char '\n']) = .ok p →
        assemble ⟨isStrict, false⟩ b = .error e →
        assemble ⟨isStrict, false⟩ (a ++ .char '\n' :: b) =
          .error { e with line := e.line + p.length } := by
  refine ⟨fun source => ?_, numbers_failure, fun a b => ⟨?_, ?_, ?_⟩⟩
  · refine ⟨lines source, hasLines_lines source, fun p => ?_, fun e => ?_⟩
    · rw [assemble_of_no_labels, programOfLines_eq_ok_iff_forall₂]
    · simp only [assemble_of_no_labels, programOfLines_eq_error_iff, Nat.add_comm 1]
  · intro p q first second
    rw [assemble_append, first, second]
    rfl
  · intro e first
    rw [assemble_append, first]
  · intro p e first second
    rw [assemble_append, first, second]
    rfl

/-- An empty line between two sources is an instruction of its own. -/
example : assemble {} (Text.ofString "psh 1\r\n" ++ .char '\n' :: Text.ofString "sum\npsh x") =
    .error ⟨4, .badOperand (Text.ofString "x") .malformed⟩ := by
  decide

end StackMachine.Assembly
