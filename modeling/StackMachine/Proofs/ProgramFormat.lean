import StackMachine.Program.Codec
import StackMachine.Proofs.ByteFields
import StackMachine.Proofs.Opcodes

/-!
# The format of encoded programs

Decoding accepts the layouts of a program and nothing else. Layouts of one program differ only in
how its number of instructions is spelled, and encoding picks the shortest of them.
-/

namespace StackMachine.Program

open Bytes (Spells)

/-- Every instruction of the program has a tag in the set. -/
def InSet (p : Program) : Prop := ∀ i ∈ p, i.tag < 10

/-- The bytes of a program, given those of its number of instructions. -/
def layout (count : List UInt8) (p : Program) : List UInt8 :=
  [0x53, 0x56, 0x4D, 0x42] ++ [0x01, 0x00] ++ count ++
    p.flatMap fun i => i.tag :: Bytes.ofSigned i.operand

variable {r s : Reader} {p : Program}

theorem inSet_cons {i : Instruction} : InSet (i :: p) ↔ i.tag < 10 ∧ p.InSet :=
  List.forall_mem_cons

theorem layout_eq (count : List UInt8) (p : Program) :
    layout count p = magic ++ (Bytes.ofU16 version ++ (count ++ p.flatMap instructionBytes)) := by
  have body : (fun i : Instruction => i.tag :: Bytes.ofSigned i.operand) = instructionBytes := by
    funext i
    rw [instructionBytes, Bytes.ofS32_eq_ofSigned]
  simp only [layout, body, List.append_assoc]
  rfl

theorem length_body (p : Program) :
    (p.flatMap instructionBytes).length = p.length * instructionSize := by
  induction p with
  | nil => rfl
  | cons i p ih =>
    simp only [List.flatMap_cons, List.length_append, ih, instructionBytes, Bytes.ofS32,
      List.length_cons, Bytes.length_littleEndian, instructionSize]
    omega

/-! ### Decoding -/

theorem readInstructions_eq_ok_iff {n : Nat} (steady : r.failsAt = none) :
    readInstructions n r = .ok (p, s) ↔
      p.length = n ∧ p.InSet ∧ r.Takes (p.flatMap instructionBytes) s := by
  induction n generalizing r p with
  | zero =>
    rw [List.length_eq_zero_iff]
    constructor
    · rintro ⟨⟩
      exact ⟨rfl, nofun, .refl _⟩
    · rintro ⟨rfl, _, taken⟩
      rw [Reader.takes_nil_iff.1 taken]
      rfl
  | succ n ih =>
    constructor
    · intro h
      unfold readInstructions at h
      split at h
      · cases h
      next tag r₁ htag =>
        have first := (Reader.byte_eq_ok_iff steady).1 htag
        have steady₁ := first.failsAt.trans steady
        split at h
        · cases h
        next op hop =>
          split at h
          · cases h
          next operand r₂ hoperand =>
            have second := (Reader.s32_eq_ok_iff steady₁).1 hoperand
            split at h
            · cases h
            next p r₃ hp =>
              cases h
              obtain ⟨hlen, hset, others⟩ := (ih (second.failsAt.trans steady₁)).1 hp
              refine ⟨by rw [List.length_cons, hlen], ?_, ?_⟩
              · exact inSet_cons.2 ⟨Opcode.exists_ofTag?_iff.1 ⟨op, hop⟩, hset⟩
              · exact (first.trans second).trans others
    · rintro ⟨hlen, hset, taken⟩
      obtain ⟨i, p, rfl⟩ := List.exists_cons_of_length_eq_add_one hlen
      obtain ⟨htag, hset⟩ := inSet_cons.1 hset
      obtain ⟨op, hop⟩ := Opcode.exists_ofTag?_iff.2 htag
      rw [List.flatMap_cons, instructionBytes, List.cons_append, Reader.takes_cons_iff] at taken
      obtain ⟨r₁, first, taken⟩ := taken
      obtain ⟨r₂, second, others⟩ := (Reader.takes_append_iff _ _).1 taken
      have steady₁ := first.failsAt.trans steady
      have rest := (ih (second.failsAt.trans steady₁)).2 ⟨Nat.succ.inj hlen, hset, others⟩
      simp only [readInstructions, (Reader.byte_eq_ok_iff steady).2 first, hop,
        (Reader.s32_eq_ok_iff steady₁).2 second, rest]

theorem lacks_of_takes {bs : List UInt8} {count : Nat} (taken : r.Takes bs s)
    (enough : count * instructionSize ≤ bs.length) : lacks r count = none := by
  have : ¬ r.rest.length < count * instructionSize := by
    rw [taken.rest, List.length_append]
    omega
  unfold lacks Reader.left?
  cases r.sized <;> simp [this]

theorem readBody_eq_ok_iff (steady : r.failsAt = none) :
    readBody r = .ok (p, s) ↔
      p.InSet ∧ ∃ count, Spells 4 count p.length ∧
        r.Takes (count ++ p.flatMap instructionBytes) s := by
  constructor
  · intro h
    unfold readBody at h
    split at h
    · cases h
    next n r₁ hn =>
      obtain ⟨count, spelled, first⟩ := (Reader.u32_eq_ok_iff steady).1 hn
      split at h
      · cases h
      next _ =>
        obtain ⟨hlen, hset, others⟩ :=
          (readInstructions_eq_ok_iff (first.failsAt.trans steady)).1 h
        exact ⟨hset, count, hlen ▸ spelled, first.trans others⟩
  · rintro ⟨hset, count, spelled, taken⟩
    obtain ⟨r₁, first, others⟩ := (Reader.takes_append_iff _ _).1 taken
    have hn : (UInt32.ofNat p.length).toNat = p.length := UInt32.toNat_ofNat_of_lt' spelled.lt
    have announced : r.u32 = (.ok (.ofNat p.length), r₁) :=
      (Reader.u32_eq_ok_iff steady).2 ⟨count, by rwa [hn], first⟩
    have room : lacks r₁ p.length = none := lacks_of_takes others (length_body p).ge
    simp only [readBody, announced, hn, room]
    exact (readInstructions_eq_ok_iff (first.failsAt.trans steady)).2 ⟨rfl, hset, others⟩

/-- Reading accepts the layouts of a program and leaves what follows them. -/
theorem read_eq_ok_iff (steady : r.failsAt = none) :
    read r = .ok (p, s) ↔
      p.InSet ∧ ∃ count, Spells 4 count p.length ∧ r.Takes (layout count p) s := by
  constructor
  · intro h
    unfold read at h
    split at h
    · cases h
    next found r₁ hmagic =>
      have first := ((Reader.bytes_eq_ok_iff steady).1 hmagic).2
      have steady₁ := first.failsAt.trans steady
      split at h
      · cases h
      next same =>
        obtain rfl : found = magic := by simpa using same
        split at h
        · cases h
        next found r₂ hversion =>
          have second := (Reader.u16_eq_ok_iff steady₁).1 hversion
          split at h
          · cases h
          next same =>
            obtain rfl : found = version := by simpa using same
            obtain ⟨hset, count, spelled, others⟩ :=
              (readBody_eq_ok_iff (second.failsAt.trans steady₁)).1 h
            refine ⟨hset, count, spelled, ?_⟩
            rw [layout_eq]
            exact first.trans (second.trans others)
  · rintro ⟨hset, count, spelled, taken⟩
    rw [layout_eq] at taken
    obtain ⟨r₁, first, taken⟩ := (Reader.takes_append_iff _ _).1 taken
    obtain ⟨r₂, second, others⟩ := (Reader.takes_append_iff _ _).1 taken
    have steady₁ := first.failsAt.trans steady
    have body := (readBody_eq_ok_iff (second.failsAt.trans steady₁)).2
      ⟨hset, count, spelled, others⟩
    simp only [read, (Reader.bytes_eq_ok_iff steady).2 ⟨rfl, first⟩,
      (Reader.u16_eq_ok_iff steady₁).2 second, body, ne_eq, not_true_eq_false, if_false]

theorem decode_layout_append {count : List UInt8} (tail : List UInt8) (hset : p.InSet)
    (spelled : Spells 4 count p.length) :
    decode (layout count p ++ tail) =
      if tail.isEmpty then .ok p
      else .error ⟨(layout count p).length, .trailing tail.length⟩ := by
  have taken := Reader.ofBytes_takes (layout count p) tail
  have done := (read_eq_ok_iff rfl).2 ⟨hset, count, spelled, taken⟩
  simp only [decode, done]

theorem exists_layout_of_decode {d : List UInt8} (h : decode d = .ok p) :
    p.InSet ∧ ∃ count, Spells 4 count p.length ∧ d = layout count p := by
  unfold decode at h
  split at h
  · cases h
  next q r₁ hread =>
    split at h
    next nothing =>
      cases h
      obtain ⟨hset, count, spelled, taken⟩ := (read_eq_ok_iff rfl).1 hread
      have whole := taken.rest
      rw [List.isEmpty_iff.1 nothing, List.append_nil] at whole
      exact ⟨hset, count, spelled, whole⟩
    · cases h

/-! ### Encoding -/

theorem firstUnencodable_eq_none_iff (pc : Nat) : firstUnencodable pc p = none ↔ p.InSet := by
  induction p generalizing pc with
  | nil => simp [firstUnencodable, InSet]
  | cons i p ih =>
    rw [inSet_cons, ← Opcode.exists_ofTag?_iff, firstUnencodable]
    cases ho : Opcode.ofTag? i.tag <;> simp [Instruction.opcode?, ho, ih]

/-- The refused instruction is the first whose tag is outside the set. -/
theorem firstUnencodable_of_not_inSet (pc : Nat) (h : ¬ p.InSet) :
    ∃ tag, firstUnencodable pc p = some ⟨pc + p.findIdx (10 ≤ ·.tag), tag⟩ := by
  induction p generalizing pc with
  | nil => exact absurd nofun h
  | cons i p ih =>
    rw [firstUnencodable]
    by_cases htag : 10 ≤ i.tag
    · have ho : i.opcode? = none := Opcode.ofTag?_eq_none_iff.2 htag
      exact ⟨i.tag, by simp [ho, List.findIdx_cons, htag]⟩
    · have low := UInt8.not_le.1 htag
      obtain ⟨op, ho⟩ : ∃ op, i.opcode? = some op := Opcode.exists_ofTag?_iff.2 low
      obtain ⟨tag, ht⟩ := ih (pc + 1) fun hp => h (inSet_cons.2 ⟨low, hp⟩)
      refine ⟨tag, ?_⟩
      simp [ho, ht, List.findIdx_cons, htag]
      omega

theorem encode_eq_ok_iff {d : List UInt8} :
    encode p = .ok d ↔ p.InSet ∧ d = layout (Bytes.ofU32 (.ofNat p.length)) p := by
  rw [← firstUnencodable_eq_none_iff 0, encode]
  cases firstUnencodable 0 p with
  | some e => simp
  | none => simp [layout_eq, header, eq_comm]

theorem encode_of_not_inSet (h : ¬ p.InSet) :
    ∃ tag, encode p = .error ⟨p.findIdx (10 ≤ ·.tag), tag⟩ := by
  obtain ⟨tag, ht⟩ := firstUnencodable_of_not_inSet 0 h
  exact ⟨tag, by simp [encode, ht]⟩

theorem layout_eq_append (count : List UInt8) (n : Nat) (p : Program) :
    layout count p = layout count (p.take n) ++ (p.drop n).flatMap instructionBytes := by
  simp only [layout_eq, List.append_assoc]
  rw [← List.flatMap_append, List.take_append_drop]

theorem decode_layout {count : List UInt8} (hset : p.InSet) (spelled : Spells 4 count p.length) :
    decode (layout count p) = .ok p := by
  have := decode_layout_append [] hset spelled
  rwa [List.append_nil] at this

/-- A number that is too small for the program makes the other instructions trailing bytes. -/
theorem decode_layout_of_lt {count : List UInt8} {n : Nat} (hset : p.InSet)
    (spelled : Spells 4 count n) (few : n < p.length) :
    decode (layout count p) = .error ⟨(layout count (p.take n)).length,
      .trailing ((p.length - n) * instructionSize)⟩ := by
  have taken : (p.take n).length = n := List.length_take_of_le few.le
  have rest : ((p.drop n).flatMap instructionBytes).length = (p.length - n) * instructionSize := by
    rw [length_body, List.length_drop]
  have nonempty : ((p.drop n).flatMap instructionBytes).isEmpty = false := by
    rw [List.isEmpty_eq_false_iff, ← List.length_pos_iff, rest]
    exact Nat.mul_pos (Nat.sub_pos_of_lt few) (by decide)
  rw [layout_eq_append count n p,
    decode_layout_append _ (fun i hi => hset i (List.mem_of_mem_take hi)) (taken.symm ▸ spelled),
    nonempty, rest]
  rfl

theorem decode_encode_of_lt {d : List UInt8} (h : encode p = .ok d) (lt : p.length < 2 ^ 32) :
    decode d = .ok p := by
  obtain ⟨hset, rfl⟩ := encode_eq_ok_iff.1 h
  have spelled := Bytes.spells_ofU32 (.ofNat p.length)
  rw [UInt32.toNat_ofNat_of_lt' lt] at spelled
  exact decode_layout hset spelled

theorem decode_encode_of_le {d : List UInt8} (h : encode p = .ok d) (le : 2 ^ 32 ≤ p.length) :
    ∃ e, decode d = .error e ∧ e.kind = .trailingData := by
  obtain ⟨hset, rfl⟩ := encode_eq_ok_iff.1 h
  have spelled := Bytes.spells_ofU32 (.ofNat p.length)
  rw [UInt32.toNat_ofNat'] at spelled
  exact ⟨_, decode_layout_of_lt hset spelled ((Nat.mod_lt _ (by decide)).trans_le le), rfl⟩

/-! ### Main results -/

/-- Encoding refuses exactly the programs with a tag outside the set, and names the first such
instruction. What it writes is decoded to the same program, or, if there are too many instructions
for their number to be written, to none. -/
theorem encode_then_decode (p : Program) :
    ((∃ d, encode p = .ok d) ↔ ∀ i ∈ p, i.tag < 10) ∧
    (¬ (∀ i ∈ p, i.tag < 10) → ∃ e report, encode p = .error e ∧
      e.failure.report? = some report ∧ report.phase = .encode ∧ report.kind = .invalidOpcode ∧
      report.pc = some (p.findIdx (10 ≤ ·.tag) : Nat)) ∧
    (∀ d, encode p = .ok d → p.length < 2 ^ 32 → decode d = .ok p) ∧
    (∀ d, encode p = .ok d → 2 ^ 32 ≤ p.length →
      ∃ e, decode d = .error e ∧ e.kind = .trailingData) ∧
    (∀ d q, encode p = .ok d → decode d = .ok q → q = p) := by
  refine ⟨⟨?_, ?_⟩, ?_, fun _ => decode_encode_of_lt, fun _ => decode_encode_of_le, ?_⟩
  · rintro ⟨d, hd⟩
    exact (encode_eq_ok_iff.1 hd).1
  · intro hset
    exact ⟨_, encode_eq_ok_iff.2 ⟨hset, rfl⟩⟩
  · intro hset
    obtain ⟨tag, ht⟩ := encode_of_not_inSet hset
    exact ⟨_, _, ht, rfl, rfl, rfl, rfl⟩
  · intro d q hd hq
    obtain lt | le := Nat.lt_or_ge p.length (2 ^ 32)
    · rw [decode_encode_of_lt hd lt] at hq
      exact (Except.ok.inj hq).symm
    · obtain ⟨e, he, _⟩ := decode_encode_of_le hd le
      rw [he] at hq
      cases hq

/-- Decoding accepts exactly the layouts of a program whose count spells its length. Any of them is
the encoding of the program with its count padded by zeros, so the encoding is the shortest. -/
theorem decode_accepts_layouts (d : List UInt8) (p : Program) :
    (decode d = .ok p ↔ (∀ i ∈ p, i.tag < 10) ∧
      ∃ count, Spells 4 count p.length ∧ d = layout count p) ∧
    (decode d = .ok p → ∃ e count k, encode p = .ok e ∧ decode e = .ok p ∧
      Spells 4 count p.length ∧ e = layout count p ∧
      d = layout (Bytes.pad k count) p ∧ d.length = e.length + k) := by
  refine ⟨⟨exists_layout_of_decode, ?_⟩, ?_⟩
  · rintro ⟨hset, count, spelled, rfl⟩
    exact decode_layout hset spelled
  · intro h
    obtain ⟨hset, count, spelled, rfl⟩ := exists_layout_of_decode h
    obtain ⟨k, hk⟩ := spelled.eq_pad
    have lt : p.length < 2 ^ 32 := spelled.lt
    have he := encode_eq_ok_iff.2 ⟨hset, rfl⟩
    refine ⟨_, Bytes.groups 4 p.length, k, he, decode_encode_of_lt he lt,
      Bytes.spells_groups lt, ?_, hk ▸ rfl, ?_⟩
    · rw [Bytes.ofU32, UInt32.toNat_ofNat_of_lt' lt]
    · rw [hk, Bytes.ofU32, UInt32.toNat_ofNat_of_lt' lt]
      simp only [layout, List.length_append, Bytes.length_pad k (Bytes.groups_ne_nil 4 p.length)]
      omega

end StackMachine.Program
