import Mathlib.Tactic.Ring
import StackMachine.Cbor.Item

/-!
# Written CBOR items

What is written in the shortest form is read back: heads, and from them items, whatever follows them.
An array or a map takes one level of nesting more than its elements. Reading takes fuel for every
item and for every element, which two for each byte cover.
-/

namespace StackMachine.Cbor

/-! ### Heads -/

@[simp] theorem length_bigEndianBytes (width n : Nat) : (bigEndianBytes width n).length = width := by
  induction width with
  | zero => rfl
  | succ width ih => rw [bigEndianBytes, List.length_cons, ih]

theorem foldl_bigEndianBytes (width n a : Nat) :
    (bigEndianBytes width n).foldl (fun n b => n * 256 + b.toNat) a =
      a * 256 ^ width + n % 256 ^ width := by
  induction width generalizing a with
  | zero => simp [bigEndianBytes, Nat.mod_one]
  | succ width ih =>
    have digit : (UInt8.ofNat (n >>> (8 * width))).toNat = n / 256 ^ width % 256 := by
      rw [UInt8.toNat_ofNat', Nat.shiftRight_eq_div_pow, Nat.pow_mul]
    rw [bigEndianBytes, List.foldl_cons, ih, digit, Nat.pow_succ, Nat.mod_mul]
    ring

theorem bigEndian_bigEndianBytes {width n : Nat} (h : n < 256 ^ width) :
    bigEndian (bigEndianBytes width n) = n := by
  rw [bigEndian, foldl_bigEndianBytes, Nat.zero_mul, Nat.zero_add, Nat.mod_eq_of_lt h]

theorem splitExact_append {α : Type} (as rest : List α) :
    splitExact as.length (as ++ rest) = some (as, rest) := by
  induction as with
  | nil => rfl
  | cons a as ih => simp [splitExact, ih]

theorem toNat_lead {major info : Nat} (hm : major < 8) (hi : info < 32) :
    (UInt8.ofNat (major * 32 + info)).toNat / 32 = major ∧
      (UInt8.ofNat (major * 32 + info)).toNat % 32 = info := by
  rw [UInt8.toNat_ofNat_of_lt' (show _ < 256 by omega)]
  omega

theorem readHead_direct {major n : Nat} (hm : major < 8) (hn : n < 24) (rest : List UInt8) :
    readHead (.ofNat (major * 32 + n) :: rest) = some (major, .direct n, rest) := by
  obtain ⟨type, info⟩ := toNat_lead hm (show n < 32 by omega)
  simp only [readHead, type, info]
  -- the numbers from `24` on announce something else
  split <;> try omega
  rfl

theorem readHead_sized {major code width n : Nat} (hm : major < 8)
    (known : (code, width) ∈ [(24, 1), (25, 2), (26, 4), (27, 8)]) (hn : n < 256 ^ width)
    (rest : List UInt8) :
    readHead (.ofNat (major * 32 + code) :: (bigEndianBytes width n ++ rest)) =
      some (major, .sized width n, rest) := by
  have taken : splitExact width (bigEndianBytes width n ++ rest) =
      some (bigEndianBytes width n, rest) := by
    simpa using splitExact_append (bigEndianBytes width n) rest
  have small : code < 32 := by
    simp at known
    omega
  obtain ⟨type, info⟩ := toNat_lead hm small
  simp only [List.mem_cons, Prod.mk.injEq, List.not_mem_nil, or_false] at known
  rcases known with ⟨rfl, rfl⟩ | ⟨rfl, rfl⟩ | ⟨rfl, rfl⟩ | ⟨rfl, rfl⟩ <;>
    simp only [readHead, type, info, taken, Option.map_some, bigEndian_bigEndianBytes hn]

theorem readHead_head {major n : Nat} (hm : major < 8) (hn : n < 2 ^ 64) (rest : List UInt8) :
    ∃ info, readHead (head major n ++ rest) = some (major, info, rest) ∧ info.number? = some n := by
  unfold head
  split
  · exact ⟨_, readHead_direct hm ‹_› rest, rfl⟩
  split
  · exact ⟨_, readHead_sized hm (by simp) ‹_› rest, rfl⟩
  split
  · exact ⟨_, readHead_sized hm (by simp) ‹_› rest, rfl⟩
  split
  · exact ⟨_, readHead_sized hm (by simp) ‹_› rest, rfl⟩
  · exact ⟨_, readHead_sized hm (by simp) hn rest, rfl⟩

/-! ### Items -/

/-- The bytes are read as the item, whatever follows them, wherever `height` levels of nesting are
left. -/
structure Yields (height : Nat) (bytes : List UInt8) (item : Item) : Prop where
  nonempty : bytes ≠ []
  read : ∀ fuel nesting rest, 2 * bytes.length ≤ fuel → nesting + height ≤ maxNesting →
    readItem fuel nesting false (bytes ++ rest) = some (item, rest)

/-- The bytes are read as these items, one after the other. -/
def YieldsAll (height : Nat) (bytes : List UInt8) (items : List Item) : Prop :=
  ∀ fuel nesting before rest, 2 * bytes.length < fuel → nesting + height ≤ maxNesting →
    readItems fuel nesting items.length before (bytes ++ rest) = some (before.reverse ++ items, rest)

variable {height n : Nat} {bytes more : List UInt8} {item : Item} {items : List Item}

theorem Yields.mono {taller : Nat} (h : Yields height bytes item) (le : height ≤ taller) :
    Yields taller bytes item := by
  refine ⟨h.nonempty, ?_⟩
  intro fuel nesting rest enough shallow
  exact h.read fuel nesting rest enough (by omega)

theorem yieldsAll_nil : YieldsAll height [] [] := by
  intro fuel nesting before rest enough _
  obtain ⟨fuel, rfl⟩ : ∃ k, fuel = k + 1 := ⟨fuel - 1, by omega⟩
  simp [readItems]

theorem Yields.cons (h : Yields height bytes item) (others : YieldsAll height more items) :
    YieldsAll height (bytes ++ more) (item :: items) := by
  intro fuel nesting before rest enough shallow
  have nonempty := List.length_pos_iff.2 h.nonempty
  rw [List.length_append] at enough
  obtain ⟨fuel, rfl⟩ : ∃ k, fuel = k + 1 := ⟨fuel - 1, by omega⟩
  have first := h.read fuel nesting (more ++ rest) (by omega) shallow
  have next := others fuel nesting (item :: before) rest (by omega) shallow
  rw [List.append_assoc, List.length_cons, readItems, first]
  simpa using next

theorem head_ne_nil (major n : Nat) : head major n ≠ [] := by
  unfold head
  dsimp only
  split_ifs <;> simp

/-- An item that is read from behind its head is read as a whole. -/
theorem yields_of_head {major : Nat} (hm : major < 8) (hn : n < 2 ^ 64) (content : List UInt8)
    (read : ∀ fuel nesting info bytes rest, readHead bytes = some (major, info, content ++ rest) →
      info.number? = some n → 2 * content.length < fuel → nesting + height ≤ maxNesting →
      readItem (fuel + 1) nesting false bytes = some (item, rest)) :
    Yields height (head major n ++ content) item := by
  have nonempty := List.length_pos_iff.2 (head_ne_nil major n)
  refine ⟨by simp [head_ne_nil], ?_⟩
  intro fuel nesting rest enough shallow
  rw [List.length_append] at enough
  obtain ⟨fuel, rfl⟩ : ∃ k, fuel = k + 1 := ⟨fuel - 1, by omega⟩
  obtain ⟨info, announced, number⟩ := readHead_head hm hn (content ++ rest)
  rw [← List.append_assoc] at announced
  exact read fuel nesting info _ rest announced number (by omega) shallow

theorem yields_unsigned (hn : n < 2 ^ 64) : Yields 0 (head 0 n) (.unsigned n) := by
  rw [← List.append_nil (head 0 n)]
  apply yields_of_head (by decide) hn []
  intro fuel nesting info bytes rest announced number _ _
  simp [readItem, announced, number]

theorem yields_negative (hn : n < 2 ^ 64) : Yields 0 (head 1 n) (.negative n) := by
  rw [← List.append_nil (head 1 n)]
  apply yields_of_head (by decide) hn []
  intro fuel nesting info bytes rest announced number _ _
  simp [readItem, announced, number]

theorem yields_text (chunk : List UInt8) (short : chunk.length < 2 ^ 64) :
    Yields 0 (head 3 chunk.length ++ chunk) (.text [chunk]) := by
  apply yields_of_head (by decide) short chunk
  intro fuel nesting info bytes rest announced number _ _
  simp [readItem, announced, readString, number, splitExact_append]

/-- Small simple values, such as false, true and null, are a head of one byte. -/
theorem yields_simple (hn : n < 24) : Yields 0 (head 7 n) (.simple n) := by
  have short : head 7 n = [.ofNat (7 * 32 + n)] := by simp [head, hn]
  rw [short]
  refine ⟨by simp, ?_⟩
  intro fuel nesting rest enough _
  obtain ⟨fuel, rfl⟩ : ∃ k, fuel = k + 1 := ⟨fuel - 1, by simp at enough; omega⟩
  rw [List.singleton_append, readItem, readHead_direct (by decide) hn]
  rfl

theorem YieldsAll.array (h : YieldsAll height bytes items) (short : items.length ≤ maxLength) :
    Yields (height + 1) (head 4 items.length ++ bytes) (.array items) := by
  have hn : items.length < 2 ^ 64 := Nat.lt_of_le_of_lt short (by decide)
  apply yields_of_head (by decide) hn bytes
  intro fuel nesting info source rest announced number enough shallow
  have inner := h fuel (nesting + 1) [] rest enough (by omega)
  have outer : ¬ maxNesting ≤ nesting := by omega
  simp [readItem, announced, number, outer, Nat.not_lt.2 short, inner]

theorem YieldsAll.map (h : YieldsAll height bytes items) (pairs : items.length = 2 * n)
    (short : n ≤ maxLength) : Yields (height + 1) (head 5 n ++ bytes) (.map items) := by
  have hn : n < 2 ^ 64 := Nat.lt_of_le_of_lt short (by decide)
  apply yields_of_head (by decide) hn bytes
  intro fuel nesting info source rest announced number enough shallow
  have inner := h fuel (nesting + 1) [] rest enough (by omega)
  have outer : ¬ maxNesting ≤ nesting := by omega
  rw [pairs] at inner
  simp [readItem, announced, number, outer, Nat.not_lt.2 short, inner]

/-- One item after the other, each of them made from an element of a list. -/
theorem yieldsAll_flatMap {α : Type} {encode : α → List UInt8} {item : α → Item}
    (each : ∀ a, Yields height (encode a) (item a)) (as : List α) :
    YieldsAll height (as.flatMap encode) (as.map item) := by
  induction as with
  | nil => exact yieldsAll_nil
  | cons a as ih => exact (each a).cons ih

/-- What is one item and nothing else is decoded. -/
theorem Yields.decode? (h : Yields height bytes item) (shallow : height ≤ maxNesting) :
    Item.decode? bytes = some item := by
  have read := h.read (2 * bytes.length + 2) 0 [] (by omega) (by omega)
  rw [List.append_nil] at read
  simp [Item.decode?, read]

/-! ### Items of values -/

namespace Item

def ofInt (n : Int) : Item := if 0 ≤ n then unsigned n.toNat else negative (-1 - n).toNat

def ofText (s : String) : Item := text [s.toUTF8.toList]

def ofBool (b : Bool) : Item := simple (if b then 21 else 20)

def null : Item := simple 22

end Item

theorem yields_encodeInt {n : Int} (lower : -2 ^ 64 ≤ n) (upper : n < 2 ^ 64) :
    Yields 0 (encodeInt n) (.ofInt n) := by
  unfold encodeInt Item.ofInt
  split
  · exact yields_unsigned (by omega)
  · exact yields_negative (by omega)

theorem length_toList_loop (bytes : ByteArray) (i : Nat) (read : List UInt8) :
    (ByteArray.toList.loop bytes i read).length = read.length + (bytes.size - i) := by
  fun_induction ByteArray.toList.loop bytes i read with
  | case1 i read lt ih =>
    rw [ih, List.length_cons]
    omega
  | case2 i read ge =>
    rw [List.length_reverse]
    omega

theorem yields_encodeText (s : String) (short : s.utf8ByteSize < 2 ^ 64) :
    Yields 0 (encodeText s) (.ofText s) := by
  have size : s.utf8ByteSize = s.toUTF8.toList.length := by
    rw [ByteArray.toList, length_toList_loop, List.length_nil, Nat.zero_add, Nat.sub_zero]
    exact String.size_toByteArray.symm
  rw [encodeText, size]
  exact yields_text _ (size ▸ short)

theorem yields_encodeBool (b : Bool) : Yields 0 (encodeBool b) (.ofBool b) := by
  cases b with
  | false => exact yields_simple (n := 20) (by decide)
  | true => exact yields_simple (n := 21) (by decide)

theorem yields_encodeNull : Yields 0 encodeNull .null := yields_simple (n := 22) (by decide)

end StackMachine.Cbor
