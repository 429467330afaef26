import Mathlib.Data.List.TakeWhile
import StackMachine.Proofs.SourceLines

/-!
# The layout of sources

A source with labels says the same however it is laid out: lines that are blank or hold a comment
may be inserted, and lines may have white space at their ends. All that such edits change is the
numbers of the lines that come later. In every mode lines may end with a carriage return and a
newline as well as with a newline alone.
-/

namespace StackMachine

/-! ### Trimmed texts -/

namespace Text

variable {t left right : Text} {l : Letter}

def Blank (t : Text) : Prop := ∀ l ∈ t, l.isBlank = true

instance (t : Text) : Decidable t.Blank := inferInstanceAs (Decidable (∀ l ∈ t, l.isBlank = true))

theorem trim_append_right (h : right.Blank) (t : Text) : (t ++ right).trim = t.trim := by
  unfold trim
  rw [List.dropWhile_append]
  split
  next empty =>
    have all : right.dropWhile Letter.isBlank = [] := List.dropWhile_eq_nil_iff.2 h
    rw [all, List.isEmpty_iff.1 empty]
  · rw [List.reverse_append, List.dropWhile_append_of_pos]
    intro l mem
    exact h l (List.mem_reverse.1 mem)

theorem trim_append_left (h : left.Blank) (t : Text) : (left ++ t).trim = t.trim := by
  rw [trim, List.dropWhile_append_of_pos h, trim]

/-- White space at the two ends of a text does not count. -/
theorem trim_padded (hl : left.Blank) (hr : right.Blank) (t : Text) :
    (left ++ t ++ right).trim = t.trim := by
  rw [trim_append_right hr, trim_append_left hl]

theorem exists_padded (t : Text) :
    ∃ left right : Text, left.Blank ∧ right.Blank ∧ t = left ++ t.trim ++ right := by
  let rest := t.dropWhile Letter.isBlank
  have taken (u : Text) : Blank (u.takeWhile Letter.isBlank) := fun l mem =>
    List.all_eq_true.1 List.all_takeWhile l mem
  refine ⟨t.takeWhile Letter.isBlank, (rest.reverse.takeWhile Letter.isBlank).reverse, taken t,
    fun l mem => taken _ l (List.mem_reverse.1 mem), ?_⟩
  have back : t.trim ++ (rest.reverse.takeWhile Letter.isBlank).reverse = rest := by
    rw [trim, ← List.reverse_append, List.takeWhile_append_dropWhile, List.reverse_reverse]
  rw [List.append_assoc, back, List.takeWhile_append_dropWhile]

@[simp] theorem trim_trim (t : Text) : t.trim.trim = t.trim := by
  obtain ⟨left, right, hl, hr, same⟩ := exists_padded t
  rw [← trim_padded hl hr t.trim, ← same]

/-- What comes before the first letter that is not blank is cut off. -/
theorem trim_of_find? (h : t.find? (fun l => !l.isBlank) = some l) : ∃ u, t.trim = l :: u := by
  obtain ⟨solid, before, after, rfl, blank⟩ := List.find?_eq_some_iff_append.1 h
  have kept : ∀ u : Text, (u ++ [l]).dropWhile Letter.isBlank =
      u.dropWhile Letter.isBlank ++ [l] := by
    intro u
    rw [List.dropWhile_append]
    split
    next empty => simp_all
    · rfl
  rw [trim_append_left (fun l mem => by simpa using blank l mem), trim]
  refine ⟨(after.reverse.dropWhile Letter.isBlank).reverse, ?_⟩
  simp_all

theorem trim_of_blank (h : t.Blank) : t.trim = [] := by
  rw [← List.append_nil t, trim_append_left h]
  rfl

end Text

namespace Assembly

variable {isStrict : Bool} {a b line s t : Text} {ls ls' before after : List Text} {n : Nat}
  {f : Nat → Nat}

/-! ### Edits -/

/-- The next line begins after this text, or it is the first. -/
def StartsLine (a : Text) : Prop := ∀ l ∈ a.getLast?, l = .char '\n'

/-- The line before ends where this text begins. -/
def EndsLine (b : Text) : Prop := ∀ l ∈ b.head?, l = .char '\n'

/-- A line that is only white space or whose first other letter begins a comment. -/
def Idle (line : Text) : Prop :=
  .char '\n' ∉ line ∧ ∀ l ∈ line.find? (fun l => !l.isBlank), l = .char '#'

instance (a : Text) : Decidable (StartsLine a) :=
  inferInstanceAs (Decidable (∀ l ∈ a.getLast?, l = .char '\n'))

instance (line : Text) : Decidable (Idle line) :=
  inferInstanceAs (Decidable (.char '\n' ∉ line ∧
    ∀ l ∈ line.find? (fun l => !l.isBlank), l = .char '#'))

/-- The number of a line after a line has been inserted that has the number `k`. -/
def movedFrom (k n : Nat) : Nat := if k ≤ n then n + 1 else n

/-- An edit of the layout of a source, with what it makes of the numbers of lines. -/
inductive Edit : Text → Text → (Nat → Nat) → Prop where
  /-- Adds white space at the two ends of a line. -/
  | pad {a left line right b : Text} : StartsLine a → EndsLine b → .char '\n' ∉ line →
      left.Blank → .char '\n' ∉ left → right.Blank → .char '\n' ∉ right →
      Edit (a ++ line ++ b) (a ++ (left ++ line ++ right) ++ b) id
  /-- Inserts a line in front of another, or behind the last newline. -/
  | insert {a line b : Text} : StartsLine a → Idle line →
      Edit (a ++ b) (a ++ line ++ .char '\n' :: b) (movedFrom (a.count (.char '\n') + 1))
  /-- Inserts a line behind the last newline that ends without a newline. -/
  | insertLast {a line : Text} : StartsLine a → Idle line →
      Edit a (a ++ line) (movedFrom (a.count (.char '\n') + 1))
  /-- Inserts a line behind a last line that ends without a newline. -/
  | insertBehind {a line : Text} : Idle line →
      Edit a (a ++ .char '\n' :: line) (movedFrom (a.count (.char '\n') + 2))

inductive Edits : Text → Text → (Nat → Nat) → Prop where
  | refl (s : Text) : Edits s s id
  | step {s t u : Text} {f g : Nat → Nat} : Edits s t f → Edit t u g → Edits s u (g ∘ f)

/-- The source with a carriage return before every newline. -/
def withReturns (source : Text) : Text :=
  source.flatMap fun l => if l = .char '\n' then [.char '\r', .char '\n'] else [l]

/-! ### What lines say -/

theorem ofLine_trim (line : Text) : Statement.ofLine line.trim = .ofLine line := by
  simp only [Statement.ofLine, Text.trim_trim]

theorem Idle.ofLine (h : Idle line) : Statement.ofLine line = .nothing := by
  cases first : line.find? (fun l => !l.isBlank) with
  | none =>
    have blank : line.Blank := by simpa [Text.Blank] using first
    rw [Statement.ofLine, Text.trim_of_blank blank]
  | some l =>
    obtain ⟨u, trimmed⟩ := Text.trim_of_find? first
    obtain rfl := h.2 l first
    rw [Statement.ofLine, trimmed]
    rfl

/-- The lines that say something, trimmed, with their numbers; the first of all has the number
`n`. -/
def content (n : Nat) (ls : List Text) : List (Text × Nat) :=
  ((ls.map Text.trim).zipIdx n).filter fun l => Statement.ofLine l.1 ≠ .nothing

@[simp] theorem content_nil (n : Nat) : content n [] = [] := rfl

theorem content_cons (n : Nat) (line : Text) (ls : List Text) :
    content n (line :: ls) =
      if Statement.ofLine line = .nothing then content (n + 1) ls
      else (line.trim, n) :: content (n + 1) ls := by
  by_cases nothing : Statement.ofLine line = .nothing <;>
    simp [content, List.zipIdx_cons, ofLine_trim, nothing]

theorem content_append (n : Nat) (ls ls' : List Text) :
    content n (ls ++ ls') = content n ls ++ content (n + ls.length) ls' := by
  simp [content, List.zipIdx_append]

theorem content_congr (h : ls.map Text.trim = ls'.map Text.trim) :
    content n ls = content n ls' := by
  rw [content, h, content]

theorem bounds_of_mem_content {l : Text × Nat} (h : l ∈ content n ls) :
    n ≤ l.2 ∧ l.2 < n + ls.length := by
  obtain ⟨low, high, -⟩ := List.mem_zipIdx (List.mem_of_mem_filter h)
  rw [List.length_map] at high
  exact ⟨low, high⟩

def renumberedLines (f : Nat → Nat) (ls : List (Text × Nat)) : List (Text × Nat) :=
  ls.map (Prod.map id f)

theorem content_succ (n : Nat) (ls : List Text) :
    content (n + 1) ls = renumberedLines (· + 1) (content n ls) := by
  simp [content, renumberedLines, List.zipIdx_succ, List.filter_map, Function.comp_def, Prod.map]

theorem content_insert (idle : Statement.ofLine line = .nothing) :
    content n (before ++ line :: after) =
      renumberedLines (movedFrom (n + before.length)) (content n (before ++ after)) := by
  rw [content_append, content_append, content_cons, if_pos idle, content_succ]
  unfold renumberedLines
  rw [List.map_append]
  congr 1
  · -- the lines before the inserted one have smaller numbers
    refine (List.map_id' _).symm.trans (List.map_congr_left fun l mem => ?_)
    have := bounds_of_mem_content mem
    simp [Prod.map, movedFrom, show ¬ n + before.length ≤ l.2 by omega]
  · refine List.map_congr_left fun l mem => ?_
    have := bounds_of_mem_content mem
    simp [Prod.map, movedFrom, this.1]

theorem content_concat (idle : Statement.ofLine line = .nothing) :
    content n (before ++ [line]) =
      renumberedLines (movedFrom (n + before.length)) (content n before) := by
  have inserted : content n (before ++ [line]) =
      renumberedLines (movedFrom (n + before.length)) (content n (before ++ [])) :=
    content_insert idle
  rwa [List.append_nil] at inserted

/-! ### Reading what lines say -/

namespace Draft

/-- Adds lines that come with their numbers. -/
def addNumbered (isStrict : Bool) (d : Draft) : List (Text × Nat) → Except AssembleError Draft
  | [] => .ok d
  | (line, n) :: rest =>
    match d.add isStrict n line with
    | .error e => .error ⟨n, e⟩
    | .ok d => d.addNumbered isStrict rest

/-- Only what lines say is read. -/
theorem addAll_eq_addNumbered (isStrict : Bool) (n : Nat) (d : Draft) (ls : List Text) :
    d.addAll isStrict n ls = d.addNumbered isStrict (content n ls) := by
  induction ls generalizing n d with
  | nil => rfl
  | cons line ls ih =>
    rw [addAll, content_cons]
    by_cases nothing : Statement.ofLine line = .nothing
    · simp only [add, nothing, ih, if_true]
    · have same : d.add isStrict n line.trim = d.add isStrict n line := by
        simp only [add, ofLine_trim]
      rw [if_neg nothing, addNumbered, same]
      cases d.add isStrict n line with
      | error e => rfl
      | ok d => exact ih (n + 1) d

end Draft

/-! ### Other numbers -/

def Slot.renumbered (f : Nat → Nat) : Slot → Slot
  | filled i => filled i
  | waiting op label line => waiting op label (f line)

def Draft.renumbered (f : Nat → Nat) (d : Draft) : Draft :=
  { d with slots := d.slots.map (.renumbered f) }

/-- What adding lines gives if they have other numbers. -/
def renumberedDraft (f : Nat → Nat) : Except AssembleError Draft → Except AssembleError Draft
  | .ok d => .ok (d.renumbered f)
  | .error e => .error { e with line := f e.line }

theorem Draft.declare_renumbered (f : Nat → Nat) (d : Draft) (name : Text) :
    (d.renumbered f).declare name = match d.declare name with
      | .ok d => .ok (d.renumbered f)
      | .error e => .error e := by
  unfold declare
  split
  · rfl
  · rw [show (d.renumbered f).labels = d.labels from rfl]
    split <;> rfl

/-- The number of a line is kept for reports and used for nothing else. -/
theorem Draft.add_renumbered (isStrict : Bool) (f : Nat → Nat) (n : Nat) (d : Draft) (line : Text) :
    (d.renumbered f).add isStrict (f n) line = match d.add isStrict n line with
      | .ok d => .ok (d.renumbered f)
      | .error e => .error e := by
  unfold add
  cases Statement.ofLine line with
  | nothing => rfl
  | declaration name => exact declare_renumbered f d name
  | jump op label => rfl
  | instruction tokens =>
    dsimp only
    cases instructionOfTokens isStrict tokens <;> rfl

theorem Draft.addNumbered_renumbered (isStrict : Bool) (f : Nat → Nat) (d : Draft)
    (ls : List (Text × Nat)) :
    (d.renumbered f).addNumbered isStrict (renumberedLines f ls) =
      renumberedDraft f (d.addNumbered isStrict ls) := by
  induction ls generalizing d with
  | nil => rfl
  | cons l ls ih =>
    obtain ⟨line, n⟩ := l
    have step : renumberedLines f ((line, n) :: ls) = (line, f n) :: renumberedLines f ls := rfl
    rw [step, addNumbered, addNumbered, add_renumbered]
    cases d.add isStrict n line with
    | error e => rfl
    | ok d => exact ih d

theorem fillSlots_renumbered (f : Nat → Nat) (labels : List (Text × Nat)) (slots : List Slot) :
    fillSlots labels (slots.map (.renumbered f)) = renumbered f (fillSlots labels slots) := by
  induction slots with
  | nil => rfl
  | cons s slots ih =>
    have step : (s.renumbered f).instruction labels = match s.instruction labels with
        | .ok i => .ok i
        | .error e => .error { e with line := f e.line } := by
      cases s with
      | filled i => rfl
      | waiting op label line =>
        simp only [Slot.renumbered, Slot.instruction]
        cases labels.lookup label <;> rfl
    rw [List.map_cons, fillSlots, fillSlots, step, ih]
    cases s.instruction labels with
    | error e => rfl
    | ok i => cases fillSlots labels slots <;> rfl

theorem Draft.program_renumbered (f : Nat → Nat) (d : Draft) :
    (d.renumbered f).program = Assembly.renumbered f d.program := by
  unfold program
  rw [← fillSlots_renumbered, List.map_reverse]
  rfl

/-! ### Edited sources -/

theorem trim_dropReturn (line : Text) : (dropReturn line).trim = line.trim := by
  unfold dropReturn
  split
  next returned =>
    obtain ⟨bare, rfl⟩ := List.getLast?_eq_some_iff.1 returned
    rw [List.dropLast_concat, Text.trim_append_right (by decide)]
  · rfl

theorem content_append_empty (n : Nat) (ls : List Text) :
    content n (ls ++ [[]]) = content n ls := by
  have nothing : Statement.ofLine [] = .nothing := rfl
  rw [content_append, content_cons, if_pos nothing, content_nil, List.append_nil]

/-- Neither a carriage return nor an empty last piece says anything. -/
theorem content_lines (n : Nat) (source : Text) :
    content n (lines source) = content n (source.split '\n') := by
  have trimmed : (lines source).map Text.trim = (dropFinalEmpty (source.split '\n')).map .trim := by
    simp [lines, Function.comp_def, trim_dropReturn]
  rw [content_congr trimmed, dropFinalEmpty_eq]
  split
  next empty =>
    obtain ⟨before, same⟩ := List.getLast?_eq_some_iff.1 empty
    rw [same, List.dropLast_concat, content_append_empty]
  · rfl

theorem assemble_eq_addNumbered (isStrict : Bool) (source : Text) :
    assemble ⟨isStrict, true⟩ source =
      match Draft.addNumbered isStrict {} (content 1 (source.split '\n')) with
      | .error e => .error e
      | .ok d => d.program := by
  rw [← content_lines, ← Draft.addAll_eq_addNumbered]
  rfl

/-- Sources that say the same on lines with other numbers are the same program, or fail alike. -/
theorem assemble_of_content
    (h : content 1 (t.split '\n') = renumberedLines f (content 1 (s.split '\n'))) :
    assemble ⟨isStrict, true⟩ t = renumbered f (assemble ⟨isStrict, true⟩ s) := by
  have start : ({} : Draft) = ({} : Draft).renumbered f := rfl
  rw [assemble_eq_addNumbered, assemble_eq_addNumbered, h, start, Draft.addNumbered_renumbered,
    ← start]
  cases Draft.addNumbered isStrict {} (content 1 (s.split '\n')) with
  | error e => rfl
  | ok d => exact d.program_renumbered f

theorem length_split (c : Char) (t : Text) : (t.split c).length = t.count (.char c) + 1 := by
  unfold Text.split
  induction t with
  | nil => rfl
  | cons l t ih =>
    by_cases separator : l = .char c
    · simp [Text.splitOnP, separator, ih]
    · cases pieces : Text.splitOnP (· == .char c) t with
      | nil => simp [pieces] at ih
      | cons piece rest => simp_all [Text.splitOnP]

/-- Where a line starts, the pieces before it do not depend on what follows. -/
theorem StartsLine.split (h : StartsLine a) :
    ∃ before, before.length = a.count (.char '\n') ∧
      ∀ t, (a ++ t).split '\n' = before ++ t.split '\n' := by
  cases last : a.getLast? with
  | none => exact ⟨[], by simp [List.getLast?_eq_none_iff.1 last]⟩
  | some l =>
    obtain rfl := h l last
    obtain ⟨front, rfl⟩ := List.getLast?_eq_some_iff.1 last
    refine ⟨Text.split '\n' front, by simp [length_split], fun t => ?_⟩
    rw [List.append_assoc, List.singleton_append, Text.split_append_cons]

/-- Where a line ends, the pieces behind it do not depend on the line. -/
theorem EndsLine.split (h : EndsLine b) :
    ∃ after, ∀ line, .char '\n' ∉ line → (line ++ b).split '\n' = line :: after := by
  cases b with
  | nil => exact ⟨[], fun line whole => by rw [List.append_nil, Text.split_of_not_mem whole]⟩
  | cons l b =>
    obtain rfl := h l rfl
    refine ⟨Text.split '\n' b, fun line whole => ?_⟩
    rw [Text.split_append_cons, Text.split_of_not_mem whole, List.singleton_append]

theorem renumberedLines_id (ls : List (Text × Nat)) : renumberedLines id ls = ls := by
  simp [renumberedLines]

/-- An edit moves what the lines of a source say, and changes nothing else about it. -/
theorem Edit.content (h : Edit s t f) :
    content 1 (t.split '\n') = renumberedLines f (content 1 (s.split '\n')) := by
  cases h with
  | @pad a left line right b starts ends whole hl noLeft hr noRight =>
    obtain ⟨before, -, front⟩ := starts.split
    obtain ⟨after, back⟩ := ends.split
    have padded : .char '\n' ∉ left ++ line ++ right := by simp [noLeft, whole, noRight]
    rw [List.append_assoc a, List.append_assoc a, front, front, back _ whole, back _ padded,
      renumberedLines_id]
    refine content_congr ?_
    rw [List.map_append, List.map_cons, Text.trim_padded hl hr, ← List.map_cons, ← List.map_append]
  | @insert a line b starts idle =>
    obtain ⟨before, number, front⟩ := starts.split
    rw [List.append_assoc, front, front, Text.split_append_cons, Text.split_of_not_mem idle.1,
      ← number, Nat.add_comm]
    exact content_insert idle.ofLine
  | @insertLast _ line starts idle =>
    obtain ⟨before, number, front⟩ := starts.split
    have empty : s.split '\n' = before ++ [[]] := List.append_nil s ▸ front []
    rw [front, Text.split_of_not_mem idle.1, empty, content_append_empty, ← number, Nat.add_comm]
    exact content_concat idle.ofLine
  | @insertBehind _ line idle =>
    rw [Text.split_append_cons, Text.split_of_not_mem idle.1,
      show s.count (.char '\n') + 2 = 1 + (s.split '\n').length by rw [length_split]; omega]
    exact content_concat idle.ofLine

theorem renumbered_renumbered (f g : Nat → Nat) (r : Except AssembleError Program) :
    renumbered g (renumbered f r) = renumbered (g ∘ f) r := by
  cases r <;> rfl

theorem assemble_of_edits (h : Edits s t f) :
    assemble ⟨isStrict, true⟩ t = renumbered f (assemble ⟨isStrict, true⟩ s) := by
  induction h with
  | refl => cases assemble ⟨isStrict, true⟩ s <;> rfl
  | step _ edit ih => rw [assemble_of_content edit.content, ih, renumbered_renumbered]

/-! ### Carriage returns -/

/-- A line that has been read so far goes on in the same way. -/
theorem lines_append_withReturns (h : .char '\r' ∉ s) (hn : .char '\n' ∉ line)
    (hr : .char '\r' ∉ line) : lines (line ++ withReturns s) = lines (line ++ s) := by
  induction s generalizing line with
  | nil => rfl
  | cons l s ih =>
    have other : l ≠ .char '\r' := fun same => h (same ▸ List.mem_cons_self)
    have rest : .char '\r' ∉ s := fun mem => h (List.mem_cons_of_mem _ mem)
    have bare {u : Text} (hu : .char '\r' ∉ u) : u.getLast? ≠ some (.char '\r') := fun last =>
      hu (List.mem_of_getLast? last)
    by_cases newline : l = .char '\n'
    · subst newline
      have returned : withReturns (.char '\n' :: s) = .char '\r' :: .char '\n' :: withReturns s :=
        rfl
      have noNewline : .char '\n' ∉ line ++ [.char '\r'] := by simp [hn]
      have again : lines ([] ++ withReturns s) = lines ([] ++ s) := ih rest (by simp) (by simp)
      rw [List.nil_append, List.nil_append] at again
      rw [returned, List.append_cons, lines_append_newline, Text.split_of_not_mem noNewline,
        lines_cons_line hn (bare hr), again]
      simp [dropReturn]
    · have same : withReturns (l :: s) = l :: withReturns s := by simp [withReturns, newline]
      rw [same, List.append_cons, List.append_cons line l s]
      refine ih rest ?_ ?_
      · simp [hn, Ne.symm newline]
      · simp [hr, Ne.symm other]

theorem assemble_of_lines {o : Options} (h : lines s = lines t) : assemble o s = assemble o t := by
  unfold assemble
  rw [h]

/-- With labels, lines that are blank or hold a comment may be inserted anywhere and white space may
be added to the ends of lines: the program stays the same, and so does an error, except that its line
number grows by one for every line inserted at it or before it. In every mode, a carriage return may
be put before every newline of a source that has none. -/
theorem layout_does_not_matter :
    (∀ isStrict s t f, Edits s t f →
      assemble ⟨isStrict, true⟩ t = renumbered f (assemble ⟨isStrict, true⟩ s)) ∧
    ∀ o source, .char '\r' ∉ source → assemble o (withReturns source) = assemble o source := by
  refine ⟨fun isStrict s t f => assemble_of_edits, fun o source none => assemble_of_lines ?_⟩
  have whole : lines ([] ++ withReturns source) = lines ([] ++ source) :=
    lines_append_withReturns none (by simp) (by simp)
  exact whole

/-- A comment moves the jump behind it, for which there is no label, from the second line to the
third. -/
theorem layout_of_moved_jump :
    let a := Text.ofString "psh 1\n"
    let b := Text.ofString "jmp x\n"
    let comment := Text.ofString " \t# x\r"
    let missing := Objection.missingLabel (Text.ofString "x")
    Edits (a ++ b) (a ++ comment ++ .char '\n' :: b) (movedFrom 2) ∧
      assemble ⟨true, true⟩ (a ++ b) = .error ⟨2, missing⟩ ∧
      assemble ⟨true, true⟩ (a ++ comment ++ .char '\n' :: b) = .error ⟨3, missing⟩ := by
  intro a b comment missing
  have edits : Edits (a ++ b) (a ++ comment ++ .char '\n' :: b) (movedFrom 2) :=
    .step (.refl _) (.insert (by decide) (by decide))
  have failed : assemble ⟨true, true⟩ (a ++ b) = .error ⟨2, missing⟩ := by decide
  refine ⟨edits, failed, ?_⟩
  rw [layout_does_not_matter.1 true _ _ _ edits, failed]
  rfl

end Assembly

end StackMachine
