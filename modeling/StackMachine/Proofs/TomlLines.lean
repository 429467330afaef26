import StackMachine.Proofs.TextPieces
import StackMachine.Toml.Statement

/-!
# Lines of TOML files

The simplest TOML files have one line for each key, with a bare key, an equals sign and a value that
needs no escapes. Such a file is read line by line: every line gives one entry, with the value that
was written, and nothing else is read.
-/

namespace StackMachine.Toml

/-! ### Values and lines -/

/-- A value that is written on one line. -/
inductive Scalar where
  | integer (n : Int)
  | boolean (b : Bool)
  | string (s : String)
  deriving DecidableEq

namespace Scalar

def value : Scalar → Value
  | integer n => .integer n
  | boolean b => .boolean b
  | string s => .string s

def text : Scalar → List Char
  | integer n => Numeral.decimal n
  | boolean b => (if b then "true" else "false").toList
  | string s => '"' :: (s.toList ++ ['"'])

/-- Integers fit 64 bits, and strings are made of letters. -/
def Plain : Scalar → Prop
  | integer n => Int64.minValue.toInt ≤ n ∧ n ≤ Int64.maxValue.toInt
  | boolean _ => True
  | string s => ∀ c ∈ s.toList, c.isAlpha = true

end Scalar

structure Assignment where
  name : String
  scalar : Scalar
  deriving DecidableEq

namespace Assignment

def text (a : Assignment) : List Char := a.name.toList ++ (' ' :: '=' :: ' ' :: a.scalar.text)

/-- The key is bare, and the value is plain. -/
structure Plain (a : Assignment) : Prop where
  nonempty : a.name.toList ≠ []
  bare : ∀ c ∈ a.name.toList, isBare c = true
  scalar : a.scalar.Plain

def statement (a : Assignment) : Statement := .entry (.assign [a.name] a.scalar.value)

end Assignment

/-- The text of lines. The last of them need not end in a newline. -/
def unlines (closed : Bool) : List (List Char) → List Char
  | [] => []
  | [line] => line ++ if closed then ['\n'] else []
  | line :: lines => line ++ '\n' :: unlines closed lines

def file (closed : Bool) (lines : List Assignment) : List UInt8 :=
  (Text.ofChars (unlines closed (lines.map Assignment.text))).bytes

/-- The line ends here. -/
def AtEnd (rest : List Char) : Prop := ∀ c ∈ rest.head?, c = '\n'

variable {p : Char → Bool} {cs word rest : List Char} {c : Char} {n fuel : Nat}

/-! ### Runs of characters -/

theorem ne_of_holds {d : Char} (holds : p c = true) (fails : p d = false) : c ≠ d := by
  rintro rfl
  rw [holds] at fails
  cases fails

theorem takeWhile_append_stop (all : ∀ c ∈ word, p c = true)
    (stop : ∀ c ∈ rest.head?, p c = false) : (word ++ rest).takeWhile p = word := by
  rw [List.takeWhile_append_of_pos all]
  cases rest with
  | nil => simp
  | cons c rest => simp [stop c (by simp)]

theorem AtEnd.stop (h : AtEnd rest) (hp : p '\n' = false) : ∀ c ∈ rest.head?, p c = false := by
  intro c hc
  rw [h c hc, hp]

/-- A word ends with its line. Even if it is a date, there is no space after it. -/
theorem readWord_append (all : ∀ c ∈ word, isWordChar c = true) (atEnd : AtEnd rest) :
    readWord (word ++ rest) = (word, rest) := by
  have taken : (word ++ rest).takeWhile isWordChar = word :=
    takeWhile_append_stop all (atEnd.stop rfl)
  unfold readWord
  simp only [taken, List.drop_left]
  split
  next c more _ =>
    cases atEnd ' ' rfl
  next => rfl

/-! ### Integers -/

theorem head?_toDigits_ne (pos : 0 < n) : (Nat.toDigits 10 n).head? ≠ some '0' := by
  induction n using Nat.strongRecOn with
  | ind n ih =>
    by_cases small : n < 10
    · have digit : ∀ d < 10, 0 < d → Nat.digitChar d ≠ '0' := by decide
      rw [Nat.toDigits_of_lt_base small]
      simpa using digit n small pos
    · have first := ih (n / 10) (by omega) (by omega)
      rw [Nat.toDigits_of_base_le (by decide) (by omega)]
      cases h : Nat.toDigits 10 (n / 10) with
      | nil => simp at h
      | cons c cs =>
        rw [h] at first
        exact first

theorem digit?_of_letter {d : Nat} (h : (Letter.char c).digit? = some d) :
    digit? 10 c = some d := by
  simp only [Letter.digit?] at h
  split at h
  next range =>
    have most : c.toNat ≤ 57 := range.2
    cases h
    simp [digit?, range]
    omega
  · cases h

/-- Digits without underscores are read in one way only. -/
theorem digits?_of_readDigits {bound m : Nat} (nonempty : cs ≠ [])
    (h : Numeral.readDigits bound n (Text.ofChars cs) = .ok m) : digits? 10 n cs = some m := by
  induction cs generalizing n with
  | nil => exact absurd rfl nonempty
  | cons c cs ih =>
    simp only [Text.ofChars, List.map_cons, Numeral.readDigits] at h
    cases digit : (Letter.char c).digit? with
    | none => simp [digit] at h
    | some d =>
      simp only [digit] at h
      split at h
      next fits =>
        cases cs with
        | nil =>
          cases h
          simp [digits?, digit?_of_letter digit]
        | cons c' cs =>
          have other : c' ≠ '_' := by
            rintro rfl
            cases h
          have rest := ih (by simp) h
          simp [digits?, other, digit?_of_letter digit, rest]
      · cases h

theorem decimal?_toDigits (n : Nat) : decimal? (Nat.toDigits 10 n) = some n := by
  have read : digits? 10 0 (Nat.toDigits 10 n) = some n :=
    digits?_of_readDigits (by simp) (Numeral.readDigits_toDigits (Nat.le_refl n))
  unfold decimal?
  split
  next c rest zero =>
    -- only zero itself begins with a zero, and then no digit follows
    cases n with
    | zero => simp [Nat.toDigits_of_lt_base] at zero
    | succ n => exact absurd (by rw [zero]; rfl) (head?_toDigits_ne (Nat.succ_pos n))
  · exact read

theorem isDigit_of_mem_decimal {n : Int} (h : c ∈ Numeral.decimal n) :
    c = '-' ∨ c.isDigit = true := by
  unfold Numeral.decimal at h
  split at h
  · obtain rfl | digit := List.mem_cons.1 h
    · exact .inl rfl
    · exact .inr (Nat.isDigit_of_mem_toDigits (by decide) (by decide) digit)
  · exact .inr (Nat.isDigit_of_mem_toDigits (by decide) (by decide) h)

theorem sign_toDigits (n : Nat) : sign (Nat.toDigits 10 n) = (false, Nat.toDigits 10 n) := by
  have digits : ∀ c ∈ Nat.toDigits 10 n, c.isDigit = true := by
    intro c hc
    exact Nat.isDigit_of_mem_toDigits (by decide) (by decide) hc
  unfold sign
  split
  next rest minus => exact absurd (digits '-' (by simp [minus])) (by decide)
  next rest plus => exact absurd (digits '+' (by simp [plus])) (by decide)
  · rfl

theorem unboundedInteger?_decimal (n : Int) : unboundedInteger? (Numeral.decimal n) = some n := by
  have not_mem (c : Char) (h : ¬ (c = '-' ∨ c.isDigit = true)) : c ∉ Numeral.decimal n := by
    intro hc
    exact h (isDigit_of_mem_decimal hc)
  unfold unboundedInteger?
  split
  next rest hex => exact absurd (by simp [hex]) (not_mem 'x' (by decide))
  next rest octal => exact absurd (by simp [octal]) (not_mem 'o' (by decide))
  next rest binary => exact absurd (by simp [binary]) (not_mem 'b' (by decide))
  next =>
    by_cases negative : n < 0
    · have signed : sign (Numeral.decimal n) = (true, Nat.toDigits 10 n.natAbs) := by
        rw [Numeral.decimal, if_pos negative]
        rfl
      have size : -(n.natAbs : Int) = n := by omega
      simp only [signed, decimal?_toDigits, if_true]
      exact congrArg some size
    · have unsigned : sign (Numeral.decimal n) = (false, Nat.toDigits 10 n.natAbs) := by
        rw [Numeral.decimal, if_neg negative, sign_toDigits]
      have size : (n.natAbs : Int) = n := by omega
      simp only [unsigned, decimal?_toDigits, Bool.false_eq_true, if_false]
      exact congrArg some size

theorem ofWord?_decimal {n : Int} (fits : Int64.minValue.toInt ≤ n ∧ n ≤ Int64.maxValue.toInt) :
    Value.ofWord? (Numeral.decimal n) = some (.integer n) := by
  have other (c : Char) (h : ¬ (c = '-' ∨ c.isDigit = true)) (rest : List Char) :
      Numeral.decimal n ≠ c :: rest := by
    intro same
    have mem : c ∈ Numeral.decimal n := by simp [same]
    exact h (isDigit_of_mem_decimal mem)
  have read : integer? (Numeral.decimal n) = some n := by
    simp only [integer?, unboundedInteger?_decimal, if_pos fits]
  rw [Value.ofWord?, if_neg (other 't' (by decide) _), if_neg (other 'f' (by decide) _), read]

/-! ### Scalars -/

theorem readScalar_of_word {v : Value} (nonempty : word ≠ [])
    (all : ∀ c ∈ word, isWordChar c = true) (known : Value.ofWord? word = some v)
    (atEnd : AtEnd rest) : readScalar (word ++ rest) = some (v, rest) := by
  have read := readWord_append all atEnd
  cases word with
  | nil => exact absurd rfl nonempty
  | cons c word =>
    have first := all c (by simp)
    have quote : c ≠ '"' := ne_of_holds first rfl
    have single : c ≠ apostrophe := ne_of_holds first rfl
    simp only [List.cons_append] at read ⊢
    simp [readScalar, quote, single, read, known]

theorem readBasicAfter_append (all : ∀ c ∈ word, c.isAlpha = true) :
    readBasicAfter 0 (word ++ '"' :: rest) = some (word, rest) := by
  induction word with
  | nil => rfl
  | cons c word ih =>
    have letter := all c (by simp)
    have quote : c ≠ '"' := ne_of_holds letter rfl
    have slash : c ≠ '\\' := ne_of_holds letter rfl
    have newline : c ≠ '\n' := ne_of_holds letter rfl
    have carriage : c ≠ '\r' := ne_of_holds letter rfl
    have after := ih fun c hc => all c (by simp [hc])
    simp [readBasicAfter, isNewline, quote, slash, newline, carriage, after, prepend]

theorem readScalar_string (all : ∀ c ∈ word, c.isAlpha = true) (atEnd : AtEnd rest) :
    readScalar ('"' :: (word ++ '"' :: rest)) = some (.string (String.ofList word), rest) := by
  have double : opensLong '"' ('"' :: (word ++ '"' :: rest)) = false := by
    cases word with
    | nil =>
      cases rest with
      | nil => rfl
      | cons c rest =>
        obtain rfl := atEnd c rfl
        rfl
    | cons c word =>
      have quote : c ≠ '"' := ne_of_holds (all c (by simp)) rfl
      simp [opensLong, quote]
  have single : opensLong apostrophe ('"' :: (word ++ '"' :: rest)) = false := by
    simp [opensLong, apostrophe]
  have read : readBasicAfter 0 (word ++ '"' :: rest) = some (word, rest) :=
    readBasicAfter_append all
  simp [readScalar, readString, double, single, readShortString, readBasic, read]

theorem isWordChar_of_mem_decimal {n : Int} (h : c ∈ Numeral.decimal n) : isWordChar c = true := by
  obtain rfl | digit := isDigit_of_mem_decimal h
  · rfl
  · simp [isWordChar, Char.isAlphanum, digit]

theorem decimal_ne_nil (n : Int) : Numeral.decimal n ≠ [] := by
  unfold Numeral.decimal
  split <;> simp

/-- A plain value is read back from its text. -/
theorem readScalar_text {s : Scalar} (plain : s.Plain) (atEnd : AtEnd rest) :
    readScalar (s.text ++ rest) = some (s.value, rest) := by
  cases s with
  | integer n =>
    exact readScalar_of_word (decimal_ne_nil n) (fun c => isWordChar_of_mem_decimal)
      (ofWord?_decimal plain) atEnd
  | boolean b =>
    cases b with
    | true => exact readScalar_of_word (by decide) (List.all_eq_true.1 rfl) rfl atEnd
    | false => exact readScalar_of_word (by decide) (List.all_eq_true.1 rfl) rfl atEnd
  | string s =>
    have read := readScalar_string plain atEnd
    simpa [Scalar.text, Scalar.value] using read

/-- The characters with which values begin. -/
def opensScalar (c : Char) : Bool := c = '"' || isWordChar c

theorem Scalar.exists_text_eq_cons (s : Scalar) :
    ∃ c cs, s.text = c :: cs ∧ opensScalar c = true := by
  cases s with
  | integer n =>
    obtain ⟨c, cs, h⟩ := List.exists_cons_of_ne_nil (decimal_ne_nil n)
    have first : isWordChar c = true := isWordChar_of_mem_decimal (n := n) (by simp [h])
    exact ⟨c, cs, h, by simp [opensScalar, first]⟩
  | boolean b =>
    cases b with
    | true => exact ⟨_, _, rfl, rfl⟩
    | false => exact ⟨_, _, rfl, rfl⟩
  | string s => exact ⟨_, _, rfl, rfl⟩

theorem readValue_text {s : Scalar} (plain : s.Plain) (atEnd : AtEnd rest) :
    readValue (fuel + 1) (s.text ++ rest) = some (s.value, rest) := by
  have read := readScalar_text plain atEnd
  obtain ⟨c, cs, text, first⟩ := s.exists_text_eq_cons
  have bracket : c ≠ '[' := ne_of_holds first rfl
  have brace : c ≠ '\x7b' := ne_of_holds first rfl
  rw [text, List.cons_append] at read ⊢
  rw [readValue.eq_def]
  simp [bracket, brace, read]

/-! ### Entries -/

theorem skipSpace_cons (holds : p c = true) (blank : p ' ' = false) (tab : p '\t' = false) :
    skipSpace (c :: cs) = c :: cs := by
  have notBlank : c ≠ ' ' := ne_of_holds holds blank
  have notTab : c ≠ '\t' := ne_of_holds holds tab
  simp [skipSpace, isSpace, notBlank, notTab]

theorem readPart_bare (nonempty : word ≠ []) (bare : ∀ c ∈ word, isBare c = true)
    (stop : ∀ c ∈ rest.head?, isBare c = false) :
    readPart (word ++ rest) = some (String.ofList word, rest) := by
  have taken : (word ++ rest).takeWhile isBare = word := takeWhile_append_stop bare stop
  have unquoted : readShortString (word ++ rest) = none := by
    obtain ⟨c, cs, rfl⟩ := List.exists_cons_of_ne_nil nonempty
    have first := bare c (by simp)
    have quote : c ≠ '"' := ne_of_holds first rfl
    have single : c ≠ apostrophe := ne_of_holds first rfl
    simp [readShortString, quote, single]
  simp [readPart, unquoted, taken, nonempty]

/-- A key of one bare part is read up to its equals sign. -/
theorem readKey_bare (nonempty : word ≠ []) (bare : ∀ c ∈ word, isBare c = true) (pos : 0 < fuel) :
    readKey fuel (word ++ ' ' :: '=' :: rest) = some ([String.ofList word], '=' :: rest) := by
  obtain ⟨fuel, rfl⟩ := Nat.exists_eq_add_one_of_ne_zero (Nat.ne_of_gt pos)
  have part : readPart (word ++ ' ' :: '=' :: rest) =
      some (String.ofList word, ' ' :: '=' :: rest) := by
    apply readPart_bare nonempty bare
    rintro c ⟨⟩
    rfl
  have here : skipSpace (word ++ ' ' :: '=' :: rest) = word ++ ' ' :: '=' :: rest := by
    obtain ⟨c, cs, rfl⟩ := List.exists_cons_of_ne_nil nonempty
    exact skipSpace_cons (bare c (by simp)) rfl rfl
  have next : skipSpace (' ' :: '=' :: rest) = '=' :: rest := rfl
  simp [readKey, here, part, next]

namespace Assignment

variable {a : Assignment}

/-- A plain line is read as its entry. -/
theorem readEntry_text (plain : a.Plain) (atEnd : AtEnd rest) :
    readEntry (fuel + 2) (a.text ++ rest) = some (.assign [a.name] a.scalar.value, rest) := by
  have shape : a.text ++ rest =
      a.name.toList ++ ' ' :: '=' :: ' ' :: (a.scalar.text ++ rest) := by simp [text]
  have key : readKey (a.text ++ rest).length (a.text ++ rest) =
      some ([a.name], '=' :: ' ' :: (a.scalar.text ++ rest)) := by
    have pos : 0 < (a.text ++ rest).length := by
      rw [shape, List.length_append, List.length_cons]
      omega
    rw [shape] at pos ⊢
    rw [readKey_bare plain.nonempty plain.bare pos, String.ofList_toList]
  have blank : skipSpace (' ' :: (a.scalar.text ++ rest)) = a.scalar.text ++ rest := by
    obtain ⟨c, cs, text, first⟩ := a.scalar.exists_text_eq_cons
    rw [text]
    exact skipSpace_cons first rfl rfl
  have value : readValue (fuel + 1) (a.scalar.text ++ rest) = some (a.scalar.value, rest) :=
    readValue_text plain.scalar atEnd
  rw [readEntry.eq_def]
  simp only [key, blank, value, Option.map_some]

theorem exists_text_eq_cons (plain : a.Plain) : ∃ c cs, a.text = c :: cs ∧ isBare c = true := by
  obtain ⟨c, cs, name⟩ := List.exists_cons_of_ne_nil plain.nonempty
  have first : isBare c = true := plain.bare c (by simp [name])
  exact ⟨c, _, by rw [text, name, List.cons_append], first⟩

theorem readStatement_text (plain : a.Plain) (atEnd : AtEnd rest) :
    readStatement (a.text ++ rest) = some (a.statement, rest) := by
  have entry (fuel : Nat) : readEntry (fuel + 2) (a.text ++ rest) =
      some (.assign [a.name] a.scalar.value, rest) := readEntry_text plain atEnd
  obtain ⟨c, cs, text, first⟩ := exists_text_eq_cons plain
  have bracket : c ≠ '[' := ne_of_holds first rfl
  rw [text, List.cons_append] at entry ⊢
  simp [readStatement, bracket, entry, statement]

end Assignment

/-! ### Files -/

theorem skipLines_cons (bare : isBare c = true) : skipLines fuel (c :: cs) = c :: cs := by
  have blank : c ≠ ' ' := ne_of_holds bare rfl
  have tab : c ≠ '\t' := ne_of_holds bare rfl
  have newline : c ≠ '\n' := ne_of_holds bare rfl
  have carriage : c ≠ '\r' := ne_of_holds bare rfl
  have comment : c ≠ '#' := ne_of_holds bare rfl
  have kept : isWhite c = false := by
    simp [isWhite, isSpace, isNewline, blank, tab, newline, carriage]
  cases fuel <;> simp [skipLines, kept, comment]

variable {closed : Bool} {line : List Char} {lines : List (List Char)}

/-- After a line comes its end, and then the lines after it. -/
theorem exists_unlines_cons (closed : Bool) (line : List Char) (lines : List (List Char)) :
    ∃ rest, unlines closed (line :: lines) = line ++ rest ∧ AtEnd rest ∧
      endStatement? rest = some (unlines closed lines) := by
  cases lines with
  | nil =>
    cases closed with
    | true => exact ⟨['\n'], rfl, by simp [AtEnd], rfl⟩
    | false => exact ⟨[], rfl, by simp [AtEnd], rfl⟩
  | cons next lines => exact ⟨'\n' :: _, rfl, by simp [AtEnd], rfl⟩

theorem length_le_length_unlines (nonempty : ∀ line ∈ lines, line ≠ []) :
    lines.length ≤ (unlines closed lines).length := by
  induction lines with
  | nil => exact Nat.zero_le _
  | cons line lines ih =>
    have more := ih fun line h => nonempty line (by simp [h])
    have one := List.length_pos_iff.2 (nonempty line (by simp))
    cases lines with
    | nil => simp [unlines]; omega
    | cons next lines =>
      simp only [unlines, List.length_append, List.length_cons] at more ⊢
      omega

/-- Lines are read one after the other, in order. -/
theorem readStatements_unlines {lines : List Assignment} (plain : ∀ a ∈ lines, a.Plain)
    (enough : lines.length < fuel) :
    readStatements fuel (unlines closed (lines.map Assignment.text)) =
      some (lines.map Assignment.statement) := by
  induction lines generalizing fuel with
  | nil =>
    obtain ⟨fuel, rfl⟩ := Nat.exists_eq_add_one_of_ne_zero (Nat.ne_of_gt enough)
    rfl
  | cons a lines ih =>
    obtain ⟨fuel, rfl⟩ : ∃ more, fuel = more + 1 := ⟨fuel - 1, by omega⟩
    obtain ⟨rest, text, atEnd, ended⟩ :=
      exists_unlines_cons closed a.text (lines.map Assignment.text)
    have others := ih (fun a h => plain a (by simp [h])) (by simpa using enough)
    have read := Assignment.readStatement_text (plain a (by simp)) atEnd
    obtain ⟨c, cs, begins, first⟩ := Assignment.exists_text_eq_cons (plain a (by simp))
    have skipped : skipLines (a.text ++ rest).length (a.text ++ rest) = a.text ++ rest := by
      rw [begins]
      exact skipLines_cons first
    rw [List.map_cons, text, readStatements, skipped]
    rw [begins, List.cons_append] at read ⊢
    simp [read, ended, others]

/-! ### Bytes -/

/-- An ASCII character that is not a control character. -/
def isGraphic (c : Char) : Bool := 0x20 ≤ c.toNat && c.toNat < 0x7F

theorem isGraphic_of_isAlphanum (h : c.isAlphanum = true) : isGraphic c = true := by
  have ranges : ((65 ≤ c.val ∧ c.val ≤ 90) ∨ (97 ≤ c.val ∧ c.val ≤ 122)) ∨
      (48 ≤ c.val ∧ c.val ≤ 57) := by
    obtain letter | digit := Bool.or_eq_true_iff.1 h
    · obtain upper | lower := Bool.or_eq_true_iff.1 letter
      · exact .inl (.inl (of_decide_eq_true upper))
      · exact .inl (.inr (by simpa using Bool.and_eq_true_iff.1 lower))
    · exact .inr (by simpa using Bool.and_eq_true_iff.1 digit)
  have code : c.toNat = c.val.toNat := rfl
  simp only [UInt32.le_iff_toNat_le, UInt32.reduceToNat] at ranges
  simp only [isGraphic, Bool.and_eq_true, decide_eq_true_eq]
  omega

theorem isGraphic_of_isBare (h : isBare c = true) : isGraphic c = true := by
  simp only [isBare, Bool.or_eq_true, decide_eq_true_eq] at h
  obtain (letter | rfl) | rfl := h
  · exact isGraphic_of_isAlphanum letter
  · rfl
  · rfl

theorem Scalar.Plain.isGraphic {s : Scalar} (plain : s.Plain) (h : c ∈ s.text) :
    isGraphic c = true := by
  cases s with
  | integer n =>
    obtain rfl | digit := isDigit_of_mem_decimal h
    · rfl
    · exact isGraphic_of_isAlphanum (by simp [Char.isAlphanum, digit])
  | boolean b =>
    have all : ∀ c ∈ (Scalar.boolean b).text, Toml.isGraphic c = true := by
      apply List.all_eq_true.1
      cases b <;> rfl
    exact all c h
  | string s =>
    simp only [Scalar.text, List.mem_cons, List.mem_append, List.not_mem_nil, or_false] at h
    obtain rfl | letter | rfl := h
    · rfl
    · exact isGraphic_of_isAlphanum (by simp [Char.isAlphanum, plain c letter])
    · rfl

theorem Assignment.Plain.isGraphic {a : Assignment} (plain : a.Plain) (h : c ∈ a.text) :
    isGraphic c = true := by
  simp only [Assignment.text, List.mem_append, List.mem_cons] at h
  obtain name | rfl | rfl | rfl | scalar := h
  · exact isGraphic_of_isBare (plain.bare c name)
  · rfl
  · rfl
  · rfl
  · exact plain.scalar.isGraphic scalar

theorem mem_unlines (h : c ∈ unlines closed lines) : c = '\n' ∨ ∃ line ∈ lines, c ∈ line := by
  fun_induction unlines closed lines with
  | case1 => cases h
  | case2 line =>
    obtain inside | ending := List.mem_append.1 h
    · exact .inr ⟨line, by simp, inside⟩
    · cases closed <;> simp_all
  | case3 line lines _ ih =>
    obtain inside | after := List.mem_append.1 h
    · exact .inr ⟨line, by simp, inside⟩
    · obtain rfl | later := List.mem_cons.1 after
      · exact .inl rfl
      · obtain newline | ⟨other, mem, inside⟩ := ih later
        · exact .inl newline
        · exact .inr ⟨other, by simp [mem], inside⟩

theorem bytes_cons (ascii : c.toNat < 0x80) (cs : List Char) :
    (Text.ofChars (c :: cs)).bytes = UInt8.ofNat c.toNat :: (Text.ofChars cs).bytes := by
  have one : String.utf8EncodeChar c = [UInt8.ofNat c.toNat] := by
    have code : c.toNat = c.val.toNat := rfl
    rw [String.utf8EncodeChar, if_pos (by omega), code]
  simp [Text.ofChars, Text.bytes, Letter.bytes, one]

theorem ofBytes_bytes (ascii : ∀ c ∈ cs, c.toNat < 0x80) :
    Text.ofBytes (Text.ofChars cs).bytes = Text.ofChars cs := by
  induction cs with
  | nil => rfl
  | cons c cs ih =>
    have small := ascii c (by simp)
    have others := ih fun c h => ascii c (by simp [h])
    have first (rest : List UInt8) :
        Utf8.first? (UInt8.ofNat c.toNat :: rest) = some (c, 0) := by
      have byte : (UInt8.ofNat c.toNat).toNat = c.toNat := by simp; omega
      have low : UInt8.ofNat c.toNat < 0x80 := by
        rw [UInt8.lt_iff_toNat_lt, byte]
        exact small
      simp only [Utf8.first?, if_pos low, byte, Char.ofNat_toNat]
    rw [bytes_cons small]
    simp only [Text.ofBytes, Text.ofBytesAfter, first] at others ⊢
    rw [others]
    rfl

/-- No ASCII character begins a mark of the byte order. -/
theorem dropMark_bytes (ascii : ∀ c ∈ cs, c.toNat < 0x80) :
    dropMark (Text.ofChars cs).bytes = (Text.ofChars cs).bytes := by
  cases cs with
  | nil => rfl
  | cons c cs =>
    have small := ascii c (by simp)
    have other (b : UInt8) (h : 0x80 ≤ b.toNat) : UInt8.ofNat c.toNat ≠ b := by
      rintro rfl
      simp at h
      omega
    rw [bytes_cons small]
    unfold dropMark
    split
    next rest mark => exact absurd (List.cons.inj mark).1 (other _ (by decide))
    next rest mark => exact absurd (List.cons.inj mark).1 (other _ (by decide))
    next rest mark => exact absurd (List.cons.inj mark).1 (other _ (by decide))
    next => rfl

theorem mapM_char?_ofChars (cs : List Char) : (Text.ofChars cs).mapM Letter.char? = some cs := by
  induction cs with
  | nil => rfl
  | cons c cs ih =>
    have cons : Text.ofChars (c :: cs) = .char c :: Text.ofChars cs := rfl
    simp [cons, Letter.char?, ih]

theorem isAllowed_of_graphic (all : ∀ c ∈ cs, c = '\n' ∨ isGraphic c = true) :
    isAllowed cs = true := by
  fun_induction isAllowed cs with
  | case1 => rfl
  | case2 rest ih => exact absurd (all '\r' (by simp)) (by decide)
  | case3 c rest _ ih =>
    have others := ih fun c h => all c (by simp [h])
    obtain rfl | graphic := all c (by simp)
    · simp [others]
    · simp only [isGraphic, Bool.and_eq_true, decide_eq_true_eq] at graphic
      have delete : c.toNat ≠ 0x7F := by omega
      simp [others, graphic.1, delete]

/-- A file of plain lines holds their entries, in order, and nothing else. -/
theorem parse?_file {lines : List Assignment} (closed : Bool) (plain : ∀ a ∈ lines, a.Plain) :
    parse? (file closed lines) = some (lines.map Assignment.statement) := by
  have graphic : ∀ c ∈ unlines closed (lines.map Assignment.text),
      c = '\n' ∨ isGraphic c = true := by
    intro c hc
    obtain newline | ⟨_, mem, inside⟩ := mem_unlines hc
    · exact .inl newline
    · obtain ⟨a, ha, rfl⟩ := List.mem_map.1 mem
      exact .inr ((plain a ha).isGraphic inside)
  have ascii : ∀ c ∈ unlines closed (lines.map Assignment.text), c.toNat < 0x80 := by
    intro c hc
    obtain rfl | printed := graphic c hc
    · decide
    · simp only [isGraphic, Bool.and_eq_true, decide_eq_true_eq] at printed
      omega
  have enough : lines.length < (unlines closed (lines.map Assignment.text)).length + 1 := by
    have lengths : (lines.map Assignment.text).length ≤
        (unlines closed (lines.map Assignment.text)).length := by
      apply length_le_length_unlines
      intro line mem
      obtain ⟨a, ha, rfl⟩ := List.mem_map.1 mem
      obtain ⟨c, cs, text, -⟩ := Assignment.exists_text_eq_cons (plain a ha)
      simp [text]
    rw [List.length_map] at lengths
    omega
  rw [parse?, file, dropMark_bytes ascii, ofBytes_bytes ascii, mapM_char?_ofChars]
  simp only [isAllowed_of_graphic graphic, if_true, readStatements_unlines plain enough]

end StackMachine.Toml
