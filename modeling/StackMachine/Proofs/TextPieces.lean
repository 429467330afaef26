import Mathlib.Algebra.Group.Int.Defs
import Mathlib.Algebra.Group.Nat.Defs
import StackMachine.Text.Blank
import StackMachine.Text.Numeral

/-!
# Pieces of texts

How splitting, trimming and reading numerals act on texts that are put together from pieces.
-/

namespace StackMachine

namespace Text

/-! ### Splitting -/

theorem splitOnP_eq_list (p : Letter → Bool) (t : Text) : splitOnP p t = List.splitOnP p t := by
  induction t with
  | nil => rfl
  | cons l t ih =>
    rw [splitOnP, List.splitOnP_cons_eq_if_modifyHead, ih]
    cases h : List.splitOnP p t with
    | nil => exact absurd h (List.splitOnP_ne_nil p t)
    | cons piece pieces => rfl

theorem split_append_cons (c : Char) (s t : Text) :
    split c (s ++ .char c :: t) = split c s ++ split c t := by
  simp only [split, splitOnP_eq_list]
  exact List.splitOnP_append_cons s t (beq_self_eq_true _)

theorem split_of_not_mem {c : Char} {t : Text} (h : .char c ∉ t) : split c t = [t] := by
  rw [split, splitOnP_eq_list]
  refine List.splitOnP_eq_singleton fun l hl => beq_eq_false_iff_ne.2 ?_
  rintro rfl
  exact h hl

theorem words_append_cons {l : Letter} (blank : l.isBlank) (s t : Text) :
    words (s ++ l :: t) = words s ++ words t := by
  simp only [words, splitOnP_eq_list]
  rw [List.splitOnP_append_cons s t blank, List.filter_append]

/-- A text that is not empty and has no blanks. -/
def Solid (t : Text) : Prop := t ≠ [] ∧ ∀ l ∈ t, l.isBlank = false

theorem Solid.words {t : Text} (h : t.Solid) : t.words = [t] := by
  rw [Text.words, splitOnP_eq_list, List.splitOnP_eq_singleton h.2]
  simp [h.1]

theorem not_of_mem_splitOnP {p : Letter → Bool} {t piece : Text} (h : piece ∈ splitOnP p t) :
    ∀ l ∈ piece, p l = false := by
  induction t generalizing piece with
  | nil =>
    rw [splitOnP, List.mem_singleton] at h
    simp [h]
  | cons l t ih =>
    unfold splitOnP at h
    split at h
    · obtain rfl | later := List.mem_cons.1 h
      · simp
      · exact ih later
    next other =>
      split at h
      next first pieces cut =>
        rw [cut] at ih
        obtain rfl | later := List.mem_cons.1 h
        · exact List.forall_mem_cons.2 ⟨Bool.eq_false_iff.2 other, ih (List.mem_cons_self ..)⟩
        · exact ih (List.mem_cons_of_mem _ later)
      · simpa [List.mem_singleton.1 h] using other

theorem solid_of_mem_words {t piece : Text} (h : piece ∈ t.words) : piece.Solid := by
  obtain ⟨cut, nonempty⟩ := List.mem_filter.1 h
  exact ⟨by simpa using nonempty, not_of_mem_splitOnP cut⟩

/-- Trimming leaves a text alone that begins and ends with a letter that is not blank. -/
theorem trim_of_ends {t : Text} (first : ∀ l ∈ t.head?, l.isBlank = false)
    (last : ∀ l ∈ t.getLast?, l.isBlank = false) : t.trim = t := by
  have keep : ∀ {u : Text}, (∀ l ∈ u.head?, l.isBlank = false) →
      u.dropWhile Letter.isBlank = u := by
    intro u hu
    cases u with
    | nil => rfl
    | cons l u => simp [hu l (by simp)]
  rw [trim, keep first, keep (by simpa using last), List.reverse_reverse]

/-! ### Tokens with single spaces between them -/

def joined (ts : List Text) : Text := [Letter.char ' '].intercalate ts

variable {ts : List Text}

theorem joined_cons (t : Text) (h : ts ≠ []) : joined (t :: ts) = t ++ .char ' ' :: joined ts := by
  rw [joined, List.intercalate_cons_of_ne_nil h, List.append_assoc]
  rfl

theorem mem_joined {l : Letter} (h : l ∈ joined ts) : l = .char ' ' ∨ ∃ t ∈ ts, l ∈ t := by
  induction ts with
  | nil => cases h
  | cons t ts ih =>
    by_cases hts : ts = []
    · subst hts
      exact .inr ⟨t, by simp, by simpa [joined] using h⟩
    · rw [joined_cons t hts, List.mem_append, List.mem_cons] at h
      obtain h | h | h := h
      · exact .inr ⟨t, by simp, h⟩
      · exact .inl h
      · exact (ih h).imp_right fun ⟨u, hu, hl⟩ => ⟨u, by simp [hu], hl⟩

theorem split_joined (solid : ∀ t ∈ ts, t.Solid) (h : ts ≠ []) : (joined ts).split ' ' = ts := by
  rw [split, splitOnP_eq_list]
  refine List.splitOn_intercalate (.char ' ') (fun t ht hm => ?_) h
  exact absurd ((solid t ht).2 _ hm) (by decide)

theorem joined_split (t : Text) : joined (t.split ' ') = t := by
  rw [joined, split, splitOnP_eq_list]
  exact List.intercalate_splitOn _

theorem words_joined (solid : ∀ t ∈ ts, t.Solid) : (joined ts).words = ts := by
  induction ts with
  | nil => rfl
  | cons t ts ih =>
    have ht := (solid t (by simp)).words
    by_cases hts : ts = []
    · subst hts
      simpa [joined] using ht
    · rw [joined_cons t hts, words_append_cons rfl, ht, ih fun u hu => solid u (by simp [hu])]
      rfl

theorem joined_ne_nil (solid : ∀ t ∈ ts, t.Solid) (h : ts ≠ []) : joined ts ≠ [] := by
  intro empty
  apply h
  rw [← words_joined solid, empty]
  rfl

theorem exists_joined_eq_cons (l : Letter) (t : Text) (ts : List Text) :
    ∃ u, joined ((l :: t) :: ts) = l :: u := by
  by_cases hts : ts = []
  · subst hts
    exact ⟨t, by simp [joined]⟩
  · exact ⟨_, joined_cons (l :: t) hts⟩

theorem isBlank_head_joined (solid : ∀ t ∈ ts, t.Solid) :
    ∀ l ∈ (joined ts).head?, l.isBlank = false := by
  cases ts with
  | nil => nofun
  | cons t ts =>
    obtain ⟨l, t, rfl⟩ := List.exists_cons_of_ne_nil (solid t (by simp)).1
    obtain ⟨u, hu⟩ := exists_joined_eq_cons l t ts
    rw [hu]
    rintro l ⟨⟩
    exact (solid (l :: t) (by simp)).2 l (by simp)

theorem isBlank_getLast_joined (solid : ∀ t ∈ ts, t.Solid) :
    ∀ l ∈ (joined ts).getLast?, l.isBlank = false := by
  induction ts with
  | nil => nofun
  | cons t ts ih =>
    by_cases hts : ts = []
    · subst hts
      intro l hl
      exact (solid t (by simp)).2 l (List.mem_of_getLast? (by simpa [joined] using hl))
    · have others : ∀ u ∈ ts, u.Solid := fun u hu => solid u (by simp [hu])
      have nonempty := joined_ne_nil others hts
      have last : (joined (t :: ts)).getLast? = (joined ts).getLast? := by
        rw [joined_cons t hts, List.getLast?_append, List.getLast?_cons_of_ne_nil nonempty,
          List.getLast?_eq_some_getLast nonempty]
        rfl
      rw [last]
      exact ih others

theorem trim_joined (solid : ∀ t ∈ ts, t.Solid) : (joined ts).trim = joined ts :=
  trim_of_ends (isBlank_head_joined solid) (isBlank_getLast_joined solid)

end Text

/-! ### Numerals -/

namespace Numeral

theorem readDigits_append (bound n : Nat) (s t : Text) :
    readDigits bound n (s ++ t) = match readDigits bound n s with
      | .ok m => readDigits bound m t
      | .error e => .error e := by
  induction s generalizing n with
  | nil => rfl
  | cons l s ih =>
    simp only [List.cons_append, readDigits]
    cases l.digit? with
    | none => rfl
    | some d =>
      by_cases h : n * 10 + d ≤ bound <;> simp [h, ih]

theorem digit?_digitChar {d : Nat} (h : d < 10) : (Letter.char d.digitChar).digit? = some d := by
  revert d
  decide

/-- The decimal digits are the characters of the numbers below ten. -/
theorem exists_digitChar {c : Char} (h : c.isDigit = true) : ∃ d < 10, c = Nat.digitChar d := by
  have range : 48 ≤ c.toNat ∧ c.toNat ≤ 57 := by
    simpa [Char.isDigit, UInt32.le_iff_toNat_le] using h
  refine ⟨c.toNat - 48, by omega, Char.toNat_inj.1 ?_⟩
  rw [Nat.toNat_digitChar_of_lt_ten (by omega)]
  omega

/-- The digits of a number read as the number. -/
theorem readDigits_toDigits {bound n : Nat} (h : n ≤ bound) :
    readDigits bound 0 (Text.ofChars (Nat.toDigits 10 n)) = .ok n := by
  induction n using Nat.strongRecOn with
  | ind n ih =>
    by_cases small : n < 10
    · rw [Nat.toDigits_of_lt_base small]
      simp [Text.ofChars, readDigits, digit?_digitChar small, h]
    · have shorter := ih (n / 10) (by omega) (by omega)
      have whole : n / 10 * 10 + n % 10 = n := by omega
      rw [Nat.toDigits_of_base_le (by decide) (by omega), Text.ofChars, List.map_append,
        readDigits_append]
      rw [Text.ofChars] at shorter
      simp [shorter, readDigits, digit?_digitChar (Nat.mod_lt n (by decide : 0 < 10)), whole, h]

theorem sign_of_digits {cs : List Char} (h : ∀ c ∈ cs, c.isDigit) :
    sign (Text.ofChars cs) = (false, Text.ofChars cs) := by
  cases cs with
  | nil => rfl
  | cons c cs =>
    have hc : c.isDigit := h c (by simp)
    have minus : c ≠ '-' := by rintro rfl; exact absurd hc (by decide)
    have plus : c ≠ '+' := by rintro rfl; exact absurd hc (by decide)
    simp [Text.ofChars, sign, minus, plus]

theorem read_of_sign {bits n : Nat} {t digits : Text} {negative : Bool}
    (hsign : sign t = (negative, digits)) (hne : digits ≠ [])
    (hn : readDigits (1 <<< bits - 1) 0 digits = .ok n) : read bits t = signed bits negative n := by
  unfold read
  rw [hsign]
  cases digits with
  | nil => exact absurd rfl hne
  | cons l digits => simp only [hn]

/-- A number that fits the word is read back from its decimal numeral. -/
theorem read_decimal {bits : Nat} {n : Int} (wide : 0 < bits) (least : -2 ^ (bits - 1) ≤ n)
    (most : n < 2 ^ (bits - 1)) : read bits (Text.ofChars (decimal n)) = .ok n := by
  have half : ((1 <<< (bits - 1) : Nat) : Int) = 2 ^ (bits - 1) := by simp [Nat.one_shiftLeft]
  have double : 1 <<< bits = 2 * 1 <<< (bits - 1) := by
    rw [Nat.one_shiftLeft, Nat.one_shiftLeft, ← Nat.pow_succ']
    congr 1
    omega
  have digits : readDigits (1 <<< bits - 1) 0 (Text.ofChars (Nat.toDigits 10 n.natAbs)) =
      .ok n.natAbs := readDigits_toDigits (by omega)
  have nonempty : Text.ofChars (Nat.toDigits 10 n.natAbs) ≠ [] := by simp [Text.ofChars]
  by_cases neg : n < 0
  · have : read bits (Text.ofChars (decimal n)) = signed bits true n.natAbs := by
      rw [decimal, if_pos neg]
      exact read_of_sign rfl nonempty digits
    rw [this, signed, if_pos rfl, if_pos (by omega)]
    congr 1
    omega
  · have : read bits (Text.ofChars (decimal n)) = signed bits false n.natAbs := by
      rw [decimal, if_neg neg]
      refine read_of_sign (sign_of_digits fun c hc => ?_) nonempty digits
      exact Nat.isDigit_of_mem_toDigits (by decide) (by decide) hc
    rw [this, signed, if_neg (by decide), if_pos (by omega)]
    congr 1
    omega

end Numeral

end StackMachine
