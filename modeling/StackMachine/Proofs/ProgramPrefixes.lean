import StackMachine.Proofs.ProgramSequences

/-!
# Encoded programs cut short

A read that does not run out of bytes gives the same whatever is added behind the bytes. So a verdict
on encoded programs other than that they are cut short stands for all longer inputs, and what is
missing its end is never taken for a program or for anything else than a program cut short.
-/

namespace StackMachine

/-! ### Reading with more bytes behind -/

@[simp] theorem ReadError.isShort_inside (e : ReadError) : e.inside.isShort = e.isShort := by
  cases e <;> rfl

namespace Reader

variable {α β : Type} {r : Reader} {n more : Nat}

/-- The same source with more bytes behind those that it has. -/
def extend (x : List UInt8) (r : Reader) : Reader := { r with rest := r.rest ++ x }

/-- The same value or error, with more bytes still to come. -/
def extendResult (x : List UInt8) : Result α → Result α
  | (v, r) => (v, r.extend x)

/-- A read that has not met the end of the bytes. -/
def Settled : Result α → Prop
  | (.ok _, _) => True
  | (.error e, _) => e.isShort = false

theorem ofBytes_append (d x : List UInt8) : ofBytes (d ++ x) = (ofBytes d).extend x := rfl

theorem byte_extend (x : List UInt8) (settled : Settled r.byte) :
    (r.extend x).byte = extendResult x r.byte := by
  have same : (r.extend x).failed = r.failed := rfl
  unfold byte at settled ⊢
  rw [same]
  cases hf : r.failed with
  | true => rfl
  | false =>
    cases hr : r.rest with
    | nil => simp [hf, hr, Settled, ReadError.isShort] at settled
    | cons b rest => simp [extend, extendResult, hr]

theorem bytes_extend (x : List UInt8) (settled : Settled (r.bytes n)) :
    (r.extend x).bytes n = extendResult x (r.bytes n) := by
  induction n generalizing r with
  | zero => rfl
  | succ n ih =>
    rw [bytes] at settled
    have first : Settled r.byte := by
      rcases hb : r.byte with ⟨e | b, s⟩ <;> simp_all [Settled]
    rw [bytes, bytes, byte_extend x first]
    rcases hb : r.byte with ⟨e | b, s⟩
    · rfl
    · have others : Settled (s.bytes n) := by
        rcases hs : s.bytes n with ⟨e | bs, t⟩ <;> simp_all [Settled]
      simp only [extendResult, ih others]
      rcases s.bytes n with ⟨e | bs, t⟩ <;> rfl

theorem groups_extend (x : List UInt8) (settled : Settled (r.groups more)) :
    (r.extend x).groups more = extendResult x (r.groups more) := by
  induction more generalizing r with
  | zero =>
    rw [groups] at settled
    have first : Settled r.byte := by
      rcases hb : r.byte with ⟨e | b, s⟩ <;> simp_all [Settled]
    rw [groups, groups, byte_extend x first]
    rcases r.byte with ⟨e | b, s⟩
    · rfl
    · by_cases small : b < 0x10 <;> simp [extendResult, small, extend]
  | succ more ih =>
    rw [groups] at settled
    have first : Settled r.byte := by
      rcases hb : r.byte with ⟨e | b, s⟩ <;> simp_all [Settled]
    rw [groups, groups, byte_extend x first]
    rcases hb : r.byte with ⟨e | b, s⟩
    · rfl
    · by_cases last : b < 0x80
      · simp [extendResult, last]
      · have others : Settled (s.groups more) := by
          rcases hs : s.groups more with ⟨e | m, t⟩ <;> simp_all [Settled]
        simp only [extendResult, last, ih others]
        rcases s.groups more with ⟨e | m, t⟩ <;> simp

theorem settled_map_iff {f : α → β} {y : Result α} :
    Settled (y.map (Except.map f) id) ↔ Settled y := by
  rcases y with ⟨e | v, r⟩ <;> rfl

theorem extendResult_map (x : List UInt8) (f : α → β) (y : Result α) :
    extendResult x (y.map (Except.map f) id) = (extendResult x y).map (Except.map f) id := rfl

theorem u32_extend (x : List UInt8) (settled : Settled r.u32) :
    (r.extend x).u32 = extendResult x r.u32 := by
  rw [u32_eq_map, settled_map_iff] at settled
  rw [u32_eq_map, u32_eq_map, groups_extend x settled, extendResult_map]

theorem u16_extend (x : List UInt8) (settled : Settled r.u16) :
    (r.extend x).u16 = extendResult x r.u16 := by
  rw [u16_eq_map, settled_map_iff] at settled
  rw [u16_eq_map, u16_eq_map, bytes_extend x settled, extendResult_map]

theorem s32_extend (x : List UInt8) (settled : Settled r.s32) :
    (r.extend x).s32 = extendResult x r.s32 := by
  rw [s32_eq_map, settled_map_iff] at settled
  rw [s32_eq_map, s32_eq_map, bytes_extend x settled, extendResult_map]

end Reader

/-! ### Programs with more bytes behind -/

namespace Program

variable {α : Type} {r s : Reader} {d x : List UInt8} {p : Program} {e : DecodeError} {n : Nat}

def extendRead (x : List UInt8) :
    Except DecodeError (Program × Reader) → Except DecodeError (Program × Reader)
  | .ok (p, r) => .ok (p, r.extend x)
  | .error e => .error e

/-- A verdict that is not about bytes that are missing. -/
def Settled : Except DecodeError α → Prop
  | .ok _ => True
  | .error e => e.kind ≠ .truncated

/-- A field that could not be read is settled if the read is. -/
theorem settled_unreadable_iff {field : Field} {e : ReadError} :
    Settled (.error (unreadable field e r) : Except DecodeError α) ↔ e.isShort = false := by
  cases h : e.isShort <;> simp [Settled, unreadable, DecodeError.kind, h]

theorem readInstructions_extend (x : List UInt8) (settled : Settled (readInstructions n r)) :
    readInstructions n (r.extend x) = extendRead x (readInstructions n r) := by
  induction n generalizing r with
  | zero => rfl
  | succ n ih =>
    rw [readInstructions] at settled
    have first : Reader.Settled r.byte := by
      rcases hb : r.byte with ⟨e | tag, s⟩ <;> simp_all [Reader.Settled, settled_unreadable_iff]
    rw [readInstructions, readInstructions, Reader.byte_extend x first]
    rcases hb : r.byte with ⟨e | tag, s⟩
    · rfl
    cases ho : Opcode.ofTag? tag with
    | none => simp [Reader.extendResult, ho, extendRead, Reader.extend]
    | some op =>
      simp only [hb, ho] at settled
      have second : Reader.Settled s.s32 := by
        rcases hs : s.s32 with ⟨e | v, t⟩ <;> simp_all [Reader.Settled, settled_unreadable_iff]
      simp only [Reader.extendResult, ho, Reader.s32_extend x second]
      rcases hs : s.s32 with ⟨e | v, t⟩
      · rfl
      have others : Settled (readInstructions n t) := by
        rcases ht : readInstructions n t with e | ⟨q, u⟩ <;> simp_all [Settled]
      simp only [ih others]
      rcases readInstructions n t with e | ⟨q, u⟩ <;> rfl

/-- Bytes that are enough for the instructions are enough with more bytes behind. -/
theorem lacks_extend (x : List UInt8) (enough : lacks r n = none) : lacks (r.extend x) n = none := by
  have same : (r.extend x).sized = r.sized := rfl
  unfold lacks Reader.left? at enough ⊢
  rw [same]
  cases hs : r.sized with
  | false => rfl
  | true =>
    have room : n * instructionSize ≤ r.rest.length := by simpa [hs] using enough
    have more : n * instructionSize ≤ (r.rest ++ x).length := by
      rw [List.length_append]
      omega
    simpa [Reader.extend] using more

theorem kind_of_lacks (h : lacks r n = some e) : e.kind = .truncated := by
  unfold lacks at h
  split at h
  · split at h
    · cases h
      rfl
    · cases h
  · cases h

theorem readBody_extend (x : List UInt8) (settled : Settled (readBody r)) :
    readBody (r.extend x) = extendRead x (readBody r) := by
  rw [readBody] at settled
  have number : Reader.Settled r.u32 := by
    rcases hn : r.u32 with ⟨e | count, s⟩ <;> simp_all [Reader.Settled, settled_unreadable_iff]
  rw [readBody, readBody, Reader.u32_extend x number]
  rcases hn : r.u32 with ⟨e | count, s⟩
  · rfl
  simp only [hn] at settled
  cases hl : lacks s count.toNat with
  | some e =>
    simp only [hl] at settled
    exact absurd (kind_of_lacks hl) settled
  | none =>
    simp only [hl] at settled
    simp only [Reader.extendResult, lacks_extend x hl, hl, readInstructions_extend x settled]

theorem read_extend (x : List UInt8) (settled : Settled (read r)) :
    read (r.extend x) = extendRead x (read r) := by
  rw [read] at settled
  have first : Reader.Settled (r.bytes magic.length) := by
    rcases hb : r.bytes magic.length with ⟨e | found, s⟩ <;>
      simp_all [Reader.Settled, settled_unreadable_iff]
  rw [read, read, Reader.bytes_extend x first]
  rcases hb : r.bytes magic.length with ⟨e | found, s⟩
  · rfl
  by_cases other : found ≠ magic
  · simp [Reader.extendResult, other, extendRead, Reader.extend]
  simp only [hb, other, if_false] at settled
  have second : Reader.Settled s.u16 := by
    rcases hv : s.u16 with ⟨e | found, t⟩ <;> simp_all [Reader.Settled, settled_unreadable_iff]
  simp only [Reader.extendResult, other, if_false, Reader.u16_extend x second]
  rcases hv : s.u16 with ⟨e | found, t⟩
  · rfl
  by_cases other : found ≠ version
  · simp [other, extendRead, Reader.extend]
  · simp only [hv, other, if_false] at settled
    simp only [other, if_false, readBody_extend x settled]

/-! ### Verdicts on longer inputs -/

/-- Bytes behind a program that was read are trailing. -/
theorem decode_append_of_read (h : read (.ofBytes d) = .ok (p, s)) (more : x ≠ []) :
    decode (d ++ x) = .error ⟨s.position, .trailing (s.rest.length + x.length)⟩ := by
  have longer : read (.ofBytes (d ++ x)) = .ok (p, s.extend x) := by
    rw [Reader.ofBytes_append, read_extend x (by simp [h, Settled]), h]
    rfl
  simp [decode, longer, more, Reader.extend]

theorem decode_append_of_ok (h : decode d = .ok p) (more : x ≠ []) :
    decode (d ++ x) = .error ⟨d.length, .trailing x.length⟩ := by
  obtain ⟨hset, count, spelled, rfl⟩ := exists_layout_of_decode h
  simp [decode_layout_append x hset spelled, more]

/-- Whatever else is wrong with bytes than that they are cut short stays wrong at its place. -/
theorem decode_append_of_error (h : decode d = .error e) (settled : e.kind ≠ .truncated)
    (more : x ≠ []) :
    ∃ e', decode (d ++ x) = .error e' ∧ e'.kind = e.kind ∧ e'.position = e.position := by
  cases hread : read (.ofBytes d) with
  | ok next =>
    obtain ⟨p, s⟩ := next
    -- the error is about bytes behind the program, and there are more of them now
    have whole := decode_append_of_read hread more
    simp only [decode, hread] at h
    split at h
    · cases h
    · cases h
      exact ⟨_, whole, rfl, rfl⟩
  | error e' =>
    obtain rfl : e' = e := by simpa [decode, hread] using h
    refine ⟨e', decode_of_read_error ?_, rfl, rfl⟩
    rw [Reader.ofBytes_append, read_extend x (by simpa [hread, Settled] using settled), hread]
    rfl

/-- Bytes that were decoded are followed by trailing data in every longer input, and an error other
than that the bytes are cut short is met at the same place in every longer input. So an input that
lacks the end of an encoded program is always refused for being cut short. -/
theorem decode_of_longer_input (d x : List UInt8) (more : x ≠ []) :
    (∀ p, decode d = .ok p →
      ∃ e, decode (d ++ x) = .error e ∧ e.kind = .trailingData ∧ e.position = d.length) ∧
    (∀ e, decode d = .error e → e.kind ≠ .truncated →
      ∃ e', decode (d ++ x) = .error e' ∧ e'.kind = e.kind ∧ e'.position = e.position) ∧
    ∀ p, decode (d ++ x) = .ok p → ∃ e, decode d = .error e ∧ e.kind = .truncated := by
  refine ⟨?_, ?_, ?_⟩
  · intro p h
    exact ⟨_, decode_append_of_ok h more, rfl, rfl⟩
  · intro e h settled
    exact decode_append_of_error h settled more
  · intro p whole
    cases h : decode d with
    | ok q =>
      rw [decode_append_of_ok h more] at whole
      cases whole
    | error e =>
      refine ⟨e, rfl, ?_⟩
      by_contra settled
      obtain ⟨e', refused, -⟩ := decode_append_of_error h settled more
      rw [refused] at whole
      cases whole

/-- An encoded program, with one byte more and with its last byte missing. -/
theorem decode_of_longer_input_halt :
    let d : List UInt8 := [0x53, 0x56, 0x4D, 0x42, 1, 0, 1, 9, 0, 0, 0]
    (∃ e, decode (d ++ [0] ++ [7]) = .error e ∧ e.kind = .trailingData ∧ e.position = 12) ∧
      ∃ e, decode d = .error e ∧ e.kind = .truncated := by
  intro d
  have whole : decode (d ++ [0]) = .ok [.halt] := by decide
  exact ⟨(decode_of_longer_input (d ++ [0]) [7] (by decide)).1 _ whole,
    (decode_of_longer_input d [0] (by decide)).2.2 _ whole⟩

end Program

end StackMachine
