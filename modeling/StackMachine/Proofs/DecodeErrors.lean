import StackMachine.Proofs.ProgramSequences

/-!
# Errors of decoding

Whatever bytes are decoded, an error gives a position in them. Since the number of instructions is
checked against the bytes left, reading instructions never comes to the end of the bytes: all that
can be wrong with an instruction is its opcode, and then the error names the byte that is there.
-/

namespace StackMachine

/-! ### Readers within bytes -/

namespace Reader

variable {d : List UInt8} {r s : Reader} {n : Nat}

/-- The reader has come to its position in these bytes. -/
structure Within (d : List UInt8) (r : Reader) : Prop where
  position : r.position ≤ d.length
  rest : r.rest = d.drop r.position
  sized : r.sized = true
  steady : r.failsAt = none

theorem within_ofBytes (d : List UInt8) : (ofBytes d).Within d := ⟨Nat.zero_le _, rfl, rfl, rfl⟩

theorem Within.takes {bs : List UInt8} (h : r.Within d) (taken : r.Takes bs s) : s.Within d where
  position := by
    have length := congrArg List.length (h.rest.symm.trans taken.rest)
    rw [List.length_drop, List.length_append] at length
    rw [taken.position]
    have := h.position
    omega
  rest := by
    rw [taken.position, ← List.drop_drop, ← h.rest, taken.rest, List.drop_left]
  sized := taken.sized.trans h.sized
  steady := taken.failsAt.trans h.steady

/-- Every read leaves the reader within the bytes, also one that fails. -/
theorem Within.byte {v : Except ReadError UInt8} (h : r.Within d) (read : r.byte = (v, s)) :
    s.Within d := by
  cases v with
  | ok b => exact h.takes ((byte_eq_ok_iff h.steady).1 read)
  | error e =>
    rw [Reader.byte] at read
    split at read
    · cases read
      exact h
    · split at read <;> cases read
      exact h

theorem Within.bytes {v : Except ReadError (List UInt8)} (h : r.Within d)
    (read : r.bytes n = (v, s)) : s.Within d := by
  induction n generalizing r v s with
  | zero =>
    cases read
    exact h
  | succ n ih =>
    rw [Reader.bytes] at read
    split at read
    next first =>
      cases read
      exact h.byte first
    next first =>
      split at read
      all_goals
        next others =>
          cases read
          exact ih (h.byte first) others

theorem Within.groups {v : Except ReadError Nat} (h : r.Within d) (read : r.groups n = (v, s)) :
    s.Within d := by
  induction n generalizing r v s with
  | zero =>
    rw [Reader.groups] at read
    split at read
    next first =>
      cases read
      exact h.byte first
    next first =>
      split at read <;> cases read <;> exact h.byte first
  | succ n ih =>
    rw [Reader.groups] at read
    split at read
    next first =>
      cases read
      exact h.byte first
    next first =>
      split at read
      · cases read
        exact h.byte first
      · split at read
        all_goals
          next others =>
            cases read
            exact ih (h.byte first) others

theorem Within.u32 {v : Except ReadError UInt32} (h : r.Within d) (read : r.u32 = (v, s)) :
    s.Within d := by
  rw [u32_eq_map] at read
  obtain rfl : (r.groups 4).2 = s := congrArg Prod.snd read
  exact h.groups rfl

theorem Within.u16 {v : Except ReadError UInt16} (h : r.Within d) (read : r.u16 = (v, s)) :
    s.Within d := by
  rw [u16_eq_map] at read
  obtain rfl : (r.bytes 2).2 = s := congrArg Prod.snd read
  exact h.bytes rfl

/-- Bytes that are there can be read. -/
theorem exists_takes (room : n ≤ r.rest.length) :
    ∃ bs s, bs.length = n ∧ r.Takes bs s ∧ s.rest.length + n = r.rest.length := by
  have length : (r.rest.take n).length = n := List.length_take_of_le room
  refine ⟨r.rest.take n, { r with rest := r.rest.drop n, position := r.position + n }, length,
    ⟨(List.take_append_drop n r.rest).symm, by rw [length], rfl, rfl⟩, ?_⟩
  rw [List.length_drop]
  omega

end Reader

namespace Program

variable {d : List UInt8} {r : Reader} {n : Nat} {e : DecodeError}

/-! ### Instructions -/

/-- The byte at the position is a tag outside the set. -/
def BadTag (d : List UInt8) (position : Nat) (tag : UInt8) : Prop :=
  d[position]? = some tag ∧ 10 ≤ tag

/-- If there are enough bytes, only an opcode can be wrong. Every instruction takes the bytes that
were counted for it, so enough are left for the others. -/
theorem readInstructions_error (h : r.Within d) (room : n * instructionSize ≤ r.rest.length)
    (failed : readInstructions n r = .error e) :
    ∃ tag, e.cause = .invalidOpcode tag ∧ BadTag d e.position tag := by
  induction n generalizing r with
  | zero => cases failed
  | succ n ih =>
    rw [instructionSize, Nat.succ_mul] at room
    rw [readInstructions] at failed
    split at failed
    next first =>
      obtain ⟨bs, s, length, taken, -⟩ := Reader.exists_takes (n := 1) (r := r) (by omega)
      obtain ⟨tag, rfl⟩ := List.length_eq_one_iff.1 length
      rw [(Reader.byte_eq_ok_iff h.steady).2 taken] at first
      cases first
    next tag s first =>
      have taken := (Reader.byte_eq_ok_iff h.steady).1 first
      have behind := h.takes taken
      have left : r.rest.length = s.rest.length + 1 := congrArg List.length taken.rest
      split at failed
      next unknown =>
        cases failed
        have here : (d.drop r.position)[0]? = some tag := by rw [← h.rest, taken.rest]; rfl
        rw [List.getElem?_drop] at here
        exact ⟨tag, rfl, here, Opcode.ofTag?_eq_none_iff.1 unknown⟩
      next =>
        obtain ⟨bs, t, length, operand, left'⟩ := Reader.exists_takes (n := 4) (r := s) (by omega)
        rw [Reader.s32, (Reader.bytes_eq_ok_iff behind.steady).2 ⟨length, operand⟩] at failed
        dsimp only at failed
        split at failed
        next others =>
          cases failed
          exact ih (behind.takes operand) (by rw [instructionSize]; omega) others
        next => cases failed

theorem lacks_eq_none_iff (h : r.Within d) :
    lacks r n = none ↔ n * instructionSize ≤ r.rest.length := by
  simp [lacks, Reader.left?, h.sized]

/-! ### Programs -/

/-- An error that can be met while a program is read. -/
inductive Refused (d : List UInt8) : DecodeError → Prop where
  /-- A field before the instructions cannot be read. -/
  | unreadable {position : Nat} {field : Field} {e : ReadError} : position ≤ d.length →
      field ≠ .opcode → field ≠ .operand → Refused d ⟨position, .unreadable field e⟩
  | magic {position : Nat} {found : List UInt8} : position ≤ d.length →
      Refused d ⟨position, .wrongMagic found⟩
  | version {position : Nat} {found : UInt16} : position ≤ d.length →
      Refused d ⟨position, .wrongVersion found⟩
  | missing {position count left : Nat} : position ≤ d.length →
      Refused d ⟨position, .missing count left⟩
  | opcode {position : Nat} {tag : UInt8} : BadTag d position tag →
      Refused d ⟨position, .invalidOpcode tag⟩

theorem refused_of_lacks (h : r.Within d) (lacking : lacks r n = some e) : Refused d e := by
  rw [lacks] at lacking
  split at lacking
  · split at lacking <;> cases lacking
    exact .missing h.position
  · cases lacking

theorem refused_of_readBody (h : r.Within d) (failed : readBody r = .error e) : Refused d e := by
  rw [readBody] at failed
  split at failed
  next number =>
    cases failed
    exact .unreadable (h.u32 number).position (by decide) (by decide)
  next count s number =>
    split at failed
    next lacking =>
      cases failed
      exact refused_of_lacks (h.u32 number) lacking
    next room =>
      have behind := h.u32 number
      obtain ⟨tag, cause, bad⟩ :=
        readInstructions_error behind ((lacks_eq_none_iff behind).1 room) failed
      obtain ⟨position, _⟩ := e
      cases cause
      exact .opcode bad

theorem refused_of_read (h : r.Within d) (failed : read r = .error e) : Refused d e := by
  rw [read] at failed
  split at failed
  next signature =>
    cases failed
    exact .unreadable (h.bytes signature).position (by decide) (by decide)
  next s signature =>
    have behind := h.bytes signature
    split at failed
    · cases failed
      exact .magic h.position
    · split at failed
      next format =>
        cases failed
        exact .unreadable (behind.u16 format).position (by decide) (by decide)
      next format =>
        split at failed
        · cases failed
          -- the version stands where the signature ends
          obtain ⟨length, taken⟩ := (Reader.bytes_eq_ok_iff h.steady).1 signature
          have reached := taken.position
          rw [length] at reached
          exact .version (reached ▸ behind.position)
        · exact refused_of_readBody (behind.u16 format) failed

theorem within_of_read {p : Program} {s : Reader} (h : r.Within d) (read : read r = .ok (p, s)) :
    s.Within d := by
  obtain ⟨bs, -, taken⟩ := (read_eq_ok_iff_encodes h.steady).1 read
  exact h.takes taken

/-- The only error of decoding that is not one of reading a program is about what follows it. -/
theorem refused_of_decode (failed : decode d = .error e) :
    Refused d e ∨ ∃ position ≤ d.length, ∃ count, e = ⟨position, .trailing count⟩ := by
  have start := Reader.within_ofBytes d
  rw [decode] at failed
  split at failed
  next refused =>
    cases failed
    exact .inl (refused_of_read start refused)
  next s read =>
    split at failed <;> cases failed
    exact .inr ⟨s.position, (within_of_read start read).position, _, rfl⟩

/-- Reading all programs goes on within the bytes, so the position is one in all of them. -/
theorem refused_of_readAll (h : r.Within d) (failed : readAll n r = .error e) : Refused d e := by
  induction n generalizing r with
  | zero => cases failed
  | succ n ih =>
    rw [readAll] at failed
    split at failed
    · cases failed
    · split at failed
      next refused =>
        cases failed
        exact refused_of_read h refused
      next read =>
        split at failed
        next others =>
          cases failed
          exact ih (within_of_read h read) others
        next => cases failed

/-! ### Reports -/

/-- The error is reported with a position in the bytes. No instruction is cut short, and an invalid
opcode is the byte at the position. -/
structure Reported (d : List UInt8) (e : DecodeError) : Prop where
  report : e.failure.report? = some e.report
  phase : e.report.phase = .decode
  position : ∃ n ≤ d.length, e.report.position = some (n : Int)
  kind : e.report.kind ∈ [Kind.truncated, .invalidMagic, .unsupportedVersion, .invalidData,
    .invalidOpcode, .trailingData]
  whole : ∀ cause, e.cause ≠ .unreadable .opcode cause ∧ e.cause ≠ .unreadable .operand cause
  opcode : e.report.kind = .invalidOpcode → ∃ (n : Nat) (tag : UInt8),
    e.report.position = some (n : Int) ∧ d[n]? = some tag ∧ 10 ≤ tag ∧
      e.report.culprit = some (.number tag.toNat)

theorem DecodeError.report?_failure (e : DecodeError) : e.failure.report? = some e.report := by
  rw [failure]
  split <;> rfl

theorem DecodeError.kind_mem (e : DecodeError) : e.report.kind ∈ [Kind.truncated, .invalidMagic,
    .unsupportedVersion, .invalidData, .invalidOpcode, .trailingData] := by
  rw [report, kind]
  dsimp only
  split
  · split <;> decide
  all_goals decide

/-- Only an opcode outside the set is reported as one. -/
theorem DecodeError.exists_tag_of_kind (h : e.report.kind = .invalidOpcode) :
    ∃ tag, e.cause = .invalidOpcode tag := by
  rw [report, kind] at h
  dsimp only at h
  split at h
  · split at h <;> cases h
  case h_5 tag cause => exact ⟨tag, cause⟩
  all_goals cases h

/-- Only bytes after a program are reported as such. -/
theorem DecodeError.exists_count_of_kind (h : e.report.kind = .trailingData) :
    ∃ count, e.cause = .trailing count := by
  rw [report, kind] at h
  dsimp only at h
  split at h
  · split at h <;> cases h
  case h_6 count cause => exact ⟨count, cause⟩
  all_goals cases h

theorem Refused.position_le (h : Refused d e) : e.position ≤ d.length := by
  cases h with
  | opcode bad => exact (List.getElem?_eq_some_iff.1 bad.1).1.le
  | _ => assumption

theorem Refused.kind_ne_trailingData (h : Refused d e) : e.report.kind ≠ .trailingData := by
  intro kind
  obtain ⟨count, cause⟩ := DecodeError.exists_count_of_kind kind
  cases h <;> cases cause

theorem Refused.reported (h : Refused d e) : Reported d e where
  report := e.report?_failure
  phase := rfl
  position := ⟨e.position, h.position_le, rfl⟩
  kind := e.kind_mem
  whole := by
    intro cause
    constructor
    all_goals
      intro same
      cases h <;> cases same
      contradiction
  opcode := by
    intro kind
    obtain ⟨tag, cause⟩ := DecodeError.exists_tag_of_kind kind
    cases h with
    | opcode bad => exact ⟨_, _, rfl, bad.1, bad.2, rfl⟩
    | _ => cases cause

theorem reported_of_trailing {position count : Nat} (h : position ≤ d.length) :
    Reported d ⟨position, .trailing count⟩ where
  report := DecodeError.report?_failure _
  phase := rfl
  position := ⟨position, h, rfl⟩
  kind := DecodeError.kind_mem _
  whole := fun _ => ⟨DecodeError.Cause.noConfusion, DecodeError.Cause.noConfusion⟩
  opcode := Kind.noConfusion

/-- The size of any number of instructions is the same in 64 bits. -/
theorem toNat_size (count : UInt32) :
    (count.toUInt64 * UInt64.ofNat instructionSize).toNat = count.toNat * instructionSize := by
  have bound := count.toNat_lt
  rw [UInt64.toNat_mul, UInt32.toNat_toUInt64, UInt64.toNat_ofNat', instructionSize]
  omega

/-- An error of decoding, or of decoding all programs, is reported with a position in the bytes;
only the former is about bytes after a program. Once the number of instructions has passed its
check, whatever it is, only an opcode can be wrong. -/
theorem decode_errors_located (d : List UInt8) :
    (∀ e, decode d = .error e → Reported d e) ∧
    (∀ e, decodeAll d = .error e → Reported d e ∧ e.report.kind ≠ .trailingData) ∧
    (∀ (count : UInt32) (r : Reader) (e : DecodeError), r.Within d →
      lacks r count.toNat = none → readInstructions count.toNat r = .error e →
        ∃ tag, e.cause = .invalidOpcode tag ∧ BadTag d e.position tag) ∧
    ∀ count : UInt32,
      (count.toUInt64 * UInt64.ofNat instructionSize).toNat = count.toNat * instructionSize := by
  refine ⟨?_, ?_, ?_, toNat_size⟩
  · intro e failed
    obtain refused | ⟨position, within, count, rfl⟩ := refused_of_decode failed
    · exact refused.reported
    · exact reported_of_trailing within
  · intro e failed
    have refused := refused_of_readAll (Reader.within_ofBytes d) failed
    exact ⟨refused.reported, refused.kind_ne_trailingData⟩
  · intro count r e within room failed
    exact readInstructions_error within ((lacks_eq_none_iff within).1 room) failed

end Program

end StackMachine
