import StackMachine.Files.Store
import StackMachine.Proofs.CborPrefixes
import StackMachine.Proofs.StoredSnapshots

/-!
# Torn snapshots

A file that was written in part, or that something was added to, does not hold a snapshot. If the
arrays of the snapshot keep to the limit on their length, its stored form is one item, and no item
is the beginning of another. A longer array is refused as soon as its head is read, so that nothing
that begins like it is an item either.
-/

namespace StackMachine

namespace Cbor

/-! ### Arrays that are too long -/

/-- No item is read from the bytes, whatever follows them, wherever `height` levels of nesting are
left. -/
def Unreadable (height : Nat) (bytes : List UInt8) : Prop :=
  ∀ fuel nesting rest, nesting + height ≤ maxNesting →
    readItem fuel nesting false (bytes ++ rest) = none

/-- One of `n` items cannot be read from the bytes. -/
def UnreadableAll (height n : Nat) (bytes : List UInt8) : Prop :=
  ∀ fuel nesting before rest, nesting + height ≤ maxNesting →
    readItems fuel nesting n before (bytes ++ rest) = none

variable {height n : Nat} {bytes more : List UInt8} {item : Item}

theorem unreadable_array (long : maxLength < n) (hn : n < 2 ^ 64) (content : List UInt8) :
    Unreadable height (head 4 n ++ content) := by
  intro fuel nesting rest _
  cases fuel with
  | zero => simp [readItem]
  | succ fuel =>
    obtain ⟨info, announced, number⟩ := readHead_head (by decide : 4 < 8) hn (content ++ rest)
    simp [readItem, announced, number, long]

theorem Unreadable.cons (h : Unreadable height bytes) (n : Nat) (more : List UInt8) :
    UnreadableAll height (n + 1) (bytes ++ more) := by
  intro fuel nesting before rest shallow
  cases fuel with
  | zero => simp [readItems]
  | succ fuel =>
    rw [List.append_assoc, readItems, h fuel nesting (more ++ rest) shallow]

/-- With any fuel, what follows an item is what is read next. -/
theorem Yields.rest_eq (h : Yields height bytes item) {fuel nesting : Nat} {rest left : List UInt8}
    {read : Item} (shallow : nesting + height ≤ maxNesting)
    (done : readItem fuel nesting false (bytes ++ rest) = some (read, left)) : left = rest := by
  have enough := h.read (fuel + 2 * bytes.length) nesting rest (by omega) shallow
  have same := (steady_of_le (Nat.le_add_right fuel (2 * bytes.length))).item _ _ done []
  rw [List.append_nil, List.append_nil, enough] at same
  cases same
  rfl

theorem Yields.cons_unreadable (h : Yields height bytes item)
    (others : UnreadableAll height n more) : UnreadableAll height (n + 1) (bytes ++ more) := by
  intro fuel nesting before rest shallow
  cases fuel with
  | zero => simp [readItems]
  | succ fuel =>
    rw [List.append_assoc, readItems]
    cases first : readItem fuel nesting false (bytes ++ (more ++ rest)) with
    | none => rfl
    | some r =>
      obtain ⟨read, left⟩ := r
      obtain rfl := h.rest_eq shallow first
      exact others fuel nesting (read :: before) rest shallow

theorem UnreadableAll.map (h : UnreadableAll height (2 * n) bytes) (short : n ≤ maxLength) :
    Unreadable (height + 1) (head 5 n ++ bytes) := by
  have hn : n < 2 ^ 64 := Nat.lt_of_le_of_lt short (by decide)
  intro fuel nesting rest shallow
  cases fuel with
  | zero => simp [readItem]
  | succ fuel =>
    obtain ⟨info, announced, number⟩ := readHead_head (by decide : 5 < 8) hn (bytes ++ rest)
    have inner := h fuel (nesting + 1) [] rest (by omega)
    simp [readItem, announced, number, inner]

theorem unreadable_encodeArray {α : Type} {element : α → List UInt8} {as : Option (List α)}
    (long : maxLength < (as.getD []).length) (hn : (as.getD []).length < 2 ^ 64) :
    Unreadable height (Snapshot.encodeArray element as) := by
  cases as with
  | none => cases long
  | some as => exact unreadable_array long hn _

/-! ### Cut or extended input -/

/-- What cannot be read is not decoded, with bytes added to it or missing at its end. -/
theorem Unreadable.decode?_eq_none (h : Unreadable height bytes) (shallow : height ≤ maxNesting)
    {other : List UInt8} (cut : other <+: bytes ∨ bytes <+: other) : Item.decode? other = none := by
  unfold Item.decode?
  obtain ⟨x, rfl⟩ | ⟨x, rfl⟩ := cut
  · split
    next read =>
      have longer := (steady_of_le (Nat.le_refl _)).item 0 false read x
      have none := h (2 * other.length + 2) 0 [] (by omega)
      rw [List.append_nil, longer] at none
      cases none
    · rfl
  · rw [h _ 0 x (by omega)]

/-- What is one item is none with bytes added to it or missing at its end. -/
theorem decode?_eq_none_of_cut (h : Item.decode? bytes = some item) {other : List UInt8}
    (cut : other <+: bytes ∨ bytes <+: other) (ne : other ≠ bytes) : Item.decode? other = none := by
  obtain ⟨x, rfl⟩ | ⟨x, rfl⟩ := cut
  · cases short : Item.decode? other with
    | none => rfl
    | some i =>
      have nonempty : x ≠ [] := by
        rintro rfl
        simp at ne
      rw [decode?_append short nonempty] at h
      cases h
  · exact decode?_append h (by simpa using ne)

end Cbor

namespace Snapshot

open Cbor

variable {s : Snapshot}

theorem unreadable_encode (stack : (s.stack.getD []).length < 2 ^ 64)
    (program : (s.program.getD []).length < 2 ^ 64)
    (long : maxLength < (s.stack.getD []).length ∨ maxLength < (s.program.getD []).length) :
    Unreadable 3 s.encode := by
  have key (n : Nat) (h : n < 24) : Yields 2 (encodeInt n) (.ofInt n) :=
    (yields_encodeInt (by omega) (by omega)).mono (by decide)
  have entries (rest : List UInt8) : UnreadableAll 2 (2 * 4) (encodeInt (1 : Nat) ++
      (encodeArray (fun v => encodeInt v.toInt) s.stack ++
        (encodeInt (2 : Nat) ++ (encodeArray encodeInstruction s.program ++ rest)))) := by
    by_cases short : (s.stack.getD []).length ≤ maxLength
    · have long := long.resolve_left (Nat.not_lt.2 short)
      exact (key 1 (by decide)).cons_unreadable <|
        ((yields_encodeArray yields_word short).mono (by decide)).cons_unreadable <|
        (key 2 (by decide)).cons_unreadable <|
        (unreadable_encodeArray long program).cons 4 rest
    · exact (key 1 (by decide)).cons_unreadable <|
        (unreadable_encodeArray (Nat.lt_of_not_le short) stack).cons 6 _
  have fields := entries (encodeInt 3 ++ encodeInt s.pc ++ (encodeInt 4 ++ encodeBool s.halted))
  simpa [encode] using fields.map (by decide)

/-- Bytes that are cut off at the end of a stored snapshot, or added to it, leave no item. -/
theorem decode?_eq_none_of_torn (stack : (s.stack.getD []).length < 2 ^ 64)
    (program : (s.program.getD []).length < 2 ^ 64)
    (pc : Int64.minValue.toInt ≤ s.pc ∧ s.pc ≤ Int64.maxValue.toInt) {bytes : List UInt8}
    (cut : bytes <+: s.encode ∨ s.encode <+: bytes) (ne : bytes ≠ s.encode) :
    Item.decode? bytes = none := by
  by_cases long : maxLength < (s.stack.getD []).length ∨ maxLength < (s.program.getD []).length
  · exact (unreadable_encode stack program long).decode?_eq_none (by decide) cut
  · have stored := (yields_encode (by omega) (by omega) pc).decode? (by decide)
    exact decode?_eq_none_of_cut stored cut ne

/-- A stored snapshot that misses bytes at its end, even all of them, or that has more bytes, is no
snapshot: reading it fails and leaves the empty snapshot, also where it is read from a file. -/
theorem torn_snapshots_rejected (s : Snapshot) (stack : (s.stack.getD []).length < 2 ^ 64)
    (program : (s.program.getD []).length < 2 ^ 64)
    (pc : Int64.minValue.toInt ≤ s.pc ∧ s.pc ≤ Int64.maxValue.toInt) (bytes : List UInt8)
    (cut : bytes <+: s.encode ∨ s.encode <+: bytes) (ne : bytes ≠ s.encode) :
    decode bytes = .error unreadable ∧ unpack bytes = ({}, some unreadable) ∧
      ∀ (t : FileTree) (path : String), t.read path = .ok bytes →
        t.loadSnapshot path = .error (.wrap .load .invalidData path none) := by
  have nothing : decode? bytes = none := by
    rw [decode?, decode?_eq_none_of_torn stack program pc cut ne]
  have failure : decode bytes = .error unreadable := by rw [decode, nothing]
  refine ⟨failure, by rw [unpack, failure], ?_⟩
  intro t path read
  simp [FileTree.loadSnapshot, FileTree.contentFor, read, nothing]

/-- The last byte of a stored snapshot is missing, all bytes are, or there is one byte more. -/
theorem torn_snapshots_rejected_halted :
    let s : Snapshot := { stack := some [7, -1], pc := 1, halted := true }
    let kept : List UInt8 := [0xA4, 0x01, 0x82, 0x07, 0x20, 0x02, 0xF6, 0x03, 0x01, 0x04]
    s.encode = kept ++ [0xF5] ∧ decode kept = .error unreadable ∧ decode [] = .error unreadable ∧
      decode (s.encode ++ [0]) = .error unreadable := by
  intro s kept
  have whole : s.encode = kept ++ [0xF5] := by decide
  have torn (bytes : List UInt8) (cut : bytes <+: s.encode ∨ s.encode <+: bytes)
      (ne : bytes ≠ s.encode) : decode bytes = .error unreadable :=
    (torn_snapshots_rejected s (by decide) (by decide) (by decide) bytes cut ne).1
  refine ⟨whole, ?_, ?_, ?_⟩
  · exact torn kept (.inl (whole ▸ List.prefix_append ..)) (by simp [whole])
  · exact torn [] (.inl List.nil_prefix) (by simp [whole])
  · exact torn (s.encode ++ [0]) (.inr (List.prefix_append ..)) (by simp)

end Snapshot

end StackMachine
