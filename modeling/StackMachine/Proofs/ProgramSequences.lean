import Mathlib.Data.List.Forall2
import StackMachine.Proofs.ProgramFormat

/-!
# Encoded programs in a row

A reader that stands further on gives the same values and the same errors, with all positions moved
on, and an encoded program is read in the same way whatever follows it. So bytes are cut into
programs in only one way, and decoding all programs takes concatenated bytes to concatenated lists.
-/

namespace StackMachine

/-! ### Reading further on -/

/-- The same error, met `n` positions further on. -/
def ReadError.shift (n : Nat) : ReadError → ReadError
  | overflow position => overflow (position + n)
  | e => e

@[simp] theorem ReadError.inside_shift (n : Nat) (e : ReadError) :
    (e.shift n).inside = e.inside.shift n := by
  cases e <;> rfl

@[simp] theorem ReadError.isShort_shift (n : Nat) (e : ReadError) :
    (e.shift n).isShort = e.isShort := by
  cases e <;> rfl

namespace Reader

variable {α β : Type}

/-- The same source of bytes, `n` positions further on. -/
def shift (n : Nat) (r : Reader) : Reader :=
  { r with position := r.position + n, failsAt := r.failsAt.map (· + n) }

@[simp] theorem rest_ofBytes (bytes : List UInt8) : (ofBytes bytes).rest = bytes := rfl

@[simp] theorem rest_shift (n : Nat) (r : Reader) : (r.shift n).rest = r.rest := rfl

@[simp] theorem position_shift (n : Nat) (r : Reader) :
    (r.shift n).position = r.position + n := rfl

@[simp] theorem left?_shift (n : Nat) (r : Reader) : (r.shift n).left? = r.left? := rfl

/-- What a read gives `n` positions further on. -/
def shiftResult (n : Nat) : Result α → Result α
  | (.ok v, r) => (.ok v, r.shift n)
  | (.error e, r) => (.error (e.shift n), r.shift n)

theorem failed_shift (n : Nat) (r : Reader) : (r.shift n).failed = r.failed := by
  unfold failed shift
  cases r.failsAt <;> simp

theorem byte_shift (n : Nat) (r : Reader) : (r.shift n).byte = shiftResult n r.byte := by
  unfold byte
  rw [failed_shift, rest_shift]
  cases r.failed with
  | true => rfl
  | false =>
    cases r.rest with
    | nil => rfl
    | cons b rest => simp [shiftResult, shift, Nat.add_right_comm]

theorem bytes_shift (n k : Nat) (r : Reader) : (r.shift n).bytes k = shiftResult n (r.bytes k) := by
  induction k generalizing r with
  | zero => rfl
  | succ k ih =>
    rw [bytes, bytes, byte_shift]
    rcases r.byte with ⟨e | b, s⟩
    · simp [shiftResult]
    · simp only [shiftResult, ih]
      rcases s.bytes k with ⟨e | bs, t⟩ <;> rfl

theorem groups_shift (n more : Nat) (r : Reader) :
    (r.shift n).groups more = shiftResult n (r.groups more) := by
  induction more generalizing r with
  | zero =>
    rw [groups, groups, byte_shift]
    rcases r.byte with ⟨e | b, s⟩
    · rfl
    · by_cases small : b < 0x10 <;> simp [shiftResult, small, ReadError.shift]
  | succ more ih =>
    rw [groups, groups, byte_shift]
    rcases r.byte with ⟨e | b, s⟩
    · rfl
    · by_cases last : b < 0x80
      · simp [shiftResult, last]
      · simp only [shiftResult, last, ih]
        rcases s.groups more with ⟨e | m, t⟩ <;> simp

theorem shiftResult_map (n : Nat) (f : α → β) (x : Result α) :
    shiftResult n (x.map (Except.map f) id) = (shiftResult n x).map (Except.map f) id := by
  rcases x with ⟨e | v, r⟩ <;> rfl

theorem u32_shift (n : Nat) (r : Reader) : (r.shift n).u32 = shiftResult n r.u32 := by
  rw [u32_eq_map, u32_eq_map, groups_shift, shiftResult_map]

theorem u16_shift (n : Nat) (r : Reader) : (r.shift n).u16 = shiftResult n r.u16 := by
  rw [u16_eq_map, u16_eq_map, bytes_shift, shiftResult_map]

theorem s32_shift (n : Nat) (r : Reader) : (r.shift n).s32 = shiftResult n r.s32 := by
  rw [s32_eq_map, s32_eq_map, bytes_shift, shiftResult_map]

end Reader

namespace Program

open Bytes (Spells)

def DecodeError.shift (n : Nat) (e : DecodeError) : DecodeError where
  position := e.position + n
  cause := match e.cause with
    | .unreadable field e => .unreadable field (e.shift n)
    | cause => cause

namespace DecodeError

/-- Only positions tell an error from the same one further on. -/
theorem kind_shift (n : Nat) (e : DecodeError) : (e.shift n).kind = e.kind := by
  rcases e with ⟨position, cause⟩
  cases cause <;> simp [shift, kind]

theorem detail_shift (n : Nat) (e : DecodeError) : (e.shift n).detail = e.detail := by
  rcases e with ⟨position, cause⟩
  cases cause <;> simp [shift, detail]

end DecodeError

def shiftRead (n : Nat) : Except DecodeError (Program × Reader) → Except DecodeError (Program × Reader)
  | .ok (p, r) => .ok (p, r.shift n)
  | .error e => .error (e.shift n)

theorem readInstructions_shift (n k : Nat) (r : Reader) :
    readInstructions k (r.shift n) = shiftRead n (readInstructions k r) := by
  induction k generalizing r with
  | zero => rfl
  | succ k ih =>
    rw [readInstructions, readInstructions, Reader.byte_shift]
    rcases r.byte with ⟨e | tag, s⟩
    · rfl
    cases ho : Opcode.ofTag? tag with
    | none => simp [Reader.shiftResult, ho, shiftRead, DecodeError.shift]
    | some op =>
      simp only [Reader.shiftResult, ho, Reader.s32_shift]
      rcases s.s32 with ⟨e | operand, t⟩
      · rfl
      · simp only [ih]
        rcases readInstructions k t with e | ⟨p, u⟩ <;> rfl

theorem lacks_shift (n count : Nat) (r : Reader) :
    lacks (r.shift n) count = (lacks r count).map (·.shift n) := by
  unfold lacks
  rw [Reader.left?_shift]
  cases r.left? with
  | none => rfl
  | some left => by_cases few : left < count * instructionSize <;> simp [few, DecodeError.shift]

theorem readBody_shift (n : Nat) (r : Reader) : readBody (r.shift n) = shiftRead n (readBody r) := by
  rw [readBody, readBody, Reader.u32_shift]
  rcases r.u32 with ⟨e | count, s⟩
  · rfl
  · simp only [Reader.shiftResult, lacks_shift, readInstructions_shift]
    cases lacks s count.toNat <;> rfl

theorem read_shift (n : Nat) (r : Reader) : read (r.shift n) = shiftRead n (read r) := by
  rw [read, read, Reader.bytes_shift]
  rcases r.bytes magic.length with ⟨e | found, s⟩
  · rfl
  by_cases other : found ≠ magic
  · simp [Reader.shiftResult, other, shiftRead, DecodeError.shift]
  simp only [Reader.shiftResult, other, if_false, Reader.u16_shift]
  rcases s.u16 with ⟨e | found, t⟩
  · rfl
  by_cases other : found ≠ version
  · simp [other, shiftRead, DecodeError.shift, Nat.add_right_comm]
  · simp only [other, if_false, readBody_shift]

theorem readAll_shift (n fuel : Nat) (r : Reader) :
    readAll fuel (r.shift n) = match readAll fuel r with
      | .ok ps => .ok ps
      | .error e => .error (e.shift n) := by
  induction fuel generalizing r with
  | zero => rfl
  | succ fuel ih =>
    rw [readAll, readAll, Reader.rest_shift, read_shift]
    cases r.rest.isEmpty with
    | true => rfl
    | false =>
      rcases read r with e | ⟨p, s⟩
      · rfl
      · simp only [shiftRead, ih]
        cases readAll fuel s <;> rfl

/-! ### Encodings of several programs -/

/-- The bytes are an encoding of the program, not necessarily the shortest one. -/
def Encodes (d : List UInt8) (p : Program) : Prop :=
  p.InSet ∧ ∃ count, Spells 4 count p.length ∧ d = layout count p

variable {a b d : List UInt8} {ds : List (List UInt8)} {p : Program} {ps : List Program}
  {r s : Reader} {m n : Nat}

theorem encodes_of_encode (h : encode p = .ok d) (short : p.length < 2 ^ 32) : Encodes d p := by
  obtain ⟨hset, rfl⟩ := encode_eq_ok_iff.1 h
  have spelled := Bytes.spells_ofU32 (.ofNat p.length)
  rw [UInt32.toNat_ofNat_of_lt' short] at spelled
  exact ⟨hset, _, spelled, rfl⟩

theorem decode_eq_ok_iff : decode d = .ok p ↔ Encodes d p := by
  refine ⟨exists_layout_of_decode, ?_⟩
  rintro ⟨hset, count, spelled, rfl⟩
  exact decode_layout hset spelled

theorem Encodes.ne_nil (h : Encodes d p) : d ≠ [] := by
  obtain ⟨-, count, -, rfl⟩ := h
  simp [layout]

theorem read_eq_ok_iff_encodes (steady : r.failsAt = none) :
    read r = .ok (p, s) ↔ ∃ d, Encodes d p ∧ r.Takes d s := by
  rw [read_eq_ok_iff steady]
  constructor
  · rintro ⟨hset, count, spelled, taken⟩
    exact ⟨_, ⟨hset, count, spelled, rfl⟩, taken⟩
  · rintro ⟨d, ⟨hset, count, spelled, rfl⟩, taken⟩
    exact ⟨hset, count, spelled, taken⟩

/-- Every program takes at least one byte. -/
theorem length_rest_lt_of_read (steady : r.failsAt = none) (h : read r = .ok (p, s)) :
    s.rest.length < r.rest.length := by
  obtain ⟨d, encoded, taken⟩ := (read_eq_ok_iff_encodes steady).1 h
  have nonempty := List.length_pos_iff.2 encoded.ne_nil
  rw [taken.rest, List.length_append]
  omega

theorem readAll_of_rest_eq_nil (h : r.rest = []) (n : Nat) : readAll n r = .ok [] := by
  cases n <;> simp [readAll, h]

/-- As many attempts as there are bytes are enough to come to the end. -/
theorem readAll_enough (steady : r.failsAt = none) (hm : r.rest.length ≤ m)
    (hn : r.rest.length ≤ n) : readAll m r = readAll n r := by
  induction m generalizing r n with
  | zero =>
    have nothing : r.rest = [] := List.length_eq_zero_iff.1 (by omega)
    rw [readAll_of_rest_eq_nil nothing, readAll_of_rest_eq_nil nothing]
  | succ m ih =>
    cases n with
    | zero =>
      have nothing : r.rest = [] := List.length_eq_zero_iff.1 (by omega)
      rw [readAll_of_rest_eq_nil nothing, readAll_of_rest_eq_nil nothing]
    | succ n =>
      rw [readAll, readAll]
      cases hread : read r with
      | error e => rfl
      | ok next =>
        obtain ⟨p, s⟩ := next
        have shorter := length_rest_lt_of_read steady hread
        obtain ⟨d, -, taken⟩ := (read_eq_ok_iff_encodes steady).1 hread
        simp only [ih (taken.failsAt.trans steady) (by omega : s.rest.length ≤ m)
          (by omega : s.rest.length ≤ n)]

/-- Encodings are read one after the other, whatever follows them. -/
theorem readAll_of_takes (steady : r.failsAt = none) (encoded : List.Forall₂ Encodes ds ps)
    (taken : r.Takes ds.flatten s) (enough : r.rest.length ≤ n) :
    readAll n r = match readAll s.rest.length s with
      | .ok qs => .ok (ps ++ qs)
      | .error e => .error e := by
  induction encoded generalizing r n with
  | nil =>
    obtain rfl := Reader.takes_nil_iff.1 taken
    rw [readAll_enough steady enough le_rfl]
    cases readAll s.rest.length s <;> rfl
  | @cons d p ds ps first _ ih =>
    obtain ⟨t, head, tail⟩ := (Reader.takes_append_iff d ds.flatten).1 taken
    have hread : read r = .ok (p, t) := (read_eq_ok_iff_encodes steady).2 ⟨d, first, head⟩
    have shorter := length_rest_lt_of_read steady hread
    obtain ⟨n, rfl⟩ : ∃ k, n = k + 1 := ⟨n - 1, by omega⟩
    have nonempty : r.rest.isEmpty = false := by
      rw [List.isEmpty_eq_false_iff, ← List.length_pos_iff]
      omega
    rw [readAll, nonempty, hread]
    simp only [ih (head.failsAt.trans steady) tail (by omega : t.rest.length ≤ n)]
    cases readAll s.rest.length s <;> rfl

theorem exists_encodes_of_readAll (steady : r.failsAt = none) (enough : r.rest.length ≤ n)
    (h : readAll n r = .ok ps) : ∃ ds, List.Forall₂ Encodes ds ps ∧ r.rest = ds.flatten := by
  induction n generalizing r ps with
  | zero =>
    cases h
    exact ⟨[], .nil, List.length_eq_zero_iff.1 (by omega)⟩
  | succ n ih =>
    rw [readAll] at h
    cases empty : r.rest.isEmpty with
    | true =>
      simp only [empty, if_true] at h
      cases h
      exact ⟨[], .nil, List.isEmpty_iff.1 empty⟩
    | false =>
      simp only [empty] at h
      cases hread : read r with
      | error e => simp [hread] at h
      | ok next =>
        obtain ⟨p, s⟩ := next
        have shorter := length_rest_lt_of_read steady hread
        obtain ⟨d, first, taken⟩ := (read_eq_ok_iff_encodes steady).1 hread
        cases hrest : readAll n s with
        | error e => simp [hread, hrest] at h
        | ok qs =>
          simp only [hread, hrest] at h
          cases h
          obtain ⟨ds, others, rest⟩ := ih (taken.failsAt.trans steady) (by omega) hrest
          exact ⟨d :: ds, .cons first others, by rw [taken.rest, rest, List.flatten_cons]⟩

/-- Encodings and further bytes are decoded to the programs and what the further bytes are decoded
to, with its positions counted from the start of all bytes. -/
theorem decodeAll_flatten_append (encoded : List.Forall₂ Encodes ds ps) (b : List UInt8) :
    decodeAll (ds.flatten ++ b) = match decodeAll b with
      | .ok qs => .ok (ps ++ qs)
      | .error e => .error (e.shift ds.flatten.length) := by
  have taken := Reader.ofBytes_takes ds.flatten b
  have behind : ({ rest := b, position := ds.flatten.length } : Reader) =
      (Reader.ofBytes b).shift ds.flatten.length := by
    simp [Reader.shift, Reader.ofBytes]
  rw [behind] at taken
  have whole := readAll_of_takes (n := (ds.flatten ++ b).length) rfl encoded taken le_rfl
  have rest : readAll b.length ((Reader.ofBytes b).shift ds.flatten.length) =
      match decodeAll b with
        | .ok qs => .ok qs
        | .error e => .error (e.shift ds.flatten.length) := readAll_shift _ _ _
  rw [decodeAll, whole, Reader.rest_shift, Reader.rest_ofBytes, rest]
  cases decodeAll b <;> rfl

/-- Decoding all programs accepts the concatenations of encodings and nothing else. -/
theorem decodeAll_eq_ok_iff :
    decodeAll d = .ok ps ↔ ∃ ds, List.Forall₂ Encodes ds ps ∧ d = ds.flatten := by
  constructor
  · exact exists_encodes_of_readAll (r := .ofBytes d) rfl le_rfl
  · rintro ⟨ds, encoded, rfl⟩
    have whole := decodeAll_flatten_append encoded []
    rw [List.append_nil] at whole
    rw [whole]
    simp [decodeAll, readAll]

theorem decodeAll_append (h : decodeAll a = .ok ps) (b : List UInt8) :
    decodeAll (a ++ b) = match decodeAll b with
      | .ok qs => .ok (ps ++ qs)
      | .error e => .error (e.shift a.length) := by
  obtain ⟨ds, encoded, rfl⟩ := decodeAll_eq_ok_iff.1 h
  exact decodeAll_flatten_append encoded b

theorem decodeAll_singleton_iff : decodeAll d = .ok [p] ↔ decode d = .ok p := by
  rw [decodeAll_eq_ok_iff, decode_eq_ok_iff]
  constructor
  · rintro ⟨ds, encoded, rfl⟩
    obtain ⟨d, others, first, rest, rfl⟩ := List.forall₂_cons_right_iff.1 encoded
    rw [List.forall₂_nil_right_iff.1 rest]
    simpa using first
  · intro encoded
    exact ⟨[d], .cons encoded .nil, by simp⟩

/-- Bytes that begin with no encoding are refused while their first program is read. -/
theorem exists_read_error (none : ∀ a b p, d = a ++ b → decode a ≠ .ok p) :
    ∃ e, read (.ofBytes d) = .error e := by
  cases hread : read (.ofBytes d) with
  | error e => exact ⟨e, rfl⟩
  | ok next =>
    obtain ⟨p, s⟩ := next
    obtain ⟨a, encoded, taken⟩ := (read_eq_ok_iff_encodes rfl).1 hread
    exact absurd (decode_eq_ok_iff.2 encoded) (none a s.rest p taken.rest)

theorem decode_of_read_error {e : DecodeError} (h : read (.ofBytes d) = .error e) :
    decode d = .error e := by
  simp [decode, h]

theorem decodeAll_of_read_error {e : DecodeError} (h : read (.ofBytes d) = .error e)
    (nonempty : d ≠ []) : decodeAll d = .error e := by
  obtain ⟨byte, bytes, rfl⟩ := List.exists_cons_of_ne_nil nonempty
  rw [decodeAll, List.length_cons, readAll, h]
  rfl

/-- Decoding all programs takes concatenation to concatenation, and an error in the second part to
the same error with a greater position. It finds one program where decoding finds it, and both
refuse a malformed first program with the same error. -/
theorem decodeAll_of_concatenation :
    (∀ a b ps, decodeAll a = .ok ps →
      (∀ qs, decodeAll (a ++ b) = .ok (ps ++ qs) ↔ decodeAll b = .ok qs) ∧
      ∀ e, decodeAll b = .error e → ∃ e', decodeAll (a ++ b) = .error e' ∧ e'.kind = e.kind ∧
        e'.detail = e.detail ∧ e'.position = e.position + a.length) ∧
    (∀ d p, decode d = .ok p ↔ decodeAll d = .ok [p]) ∧
    ∀ d, d ≠ [] → (∀ a b p, d = a ++ b → decode a ≠ .ok p) →
      ∃ e, decode d = .error e ∧ decodeAll d = .error e := by
  refine ⟨?_, ?_, ?_⟩
  · intro a b ps ha
    rw [decodeAll_append ha b]
    refine ⟨fun qs => ?_, fun e he => ?_⟩
    · cases decodeAll b <;> simp
    · exact ⟨e.shift a.length, by rw [he], e.kind_shift _, e.detail_shift _, rfl⟩
  · intro d p
    exact decodeAll_singleton_iff.symm
  · intro d nonempty none
    obtain ⟨e, he⟩ := exists_read_error none
    exact ⟨e, decode_of_read_error he, decodeAll_of_read_error he nonempty⟩

end Program

end StackMachine
