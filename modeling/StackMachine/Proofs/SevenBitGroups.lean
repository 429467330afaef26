import StackMachine.Proofs.ByteFields

/-!
# Numbers in groups of seven bits

Reading and writing a number of variable length can be done in words of 32 bits, with shifts, in
loops that have no bound of their own. No bit is lost on the way and no more than five bytes are
read. What comes of reading depends on the bytes up to the first one whose high bit is not set, and
what is written for a number is the shortest of all that is read as this number.
-/

namespace StackMachine

/-! ### Bytes and their bits -/

namespace Bytes

/-- A property of bytes holds of all of them if it holds of the numbers below 256. -/
theorem forall_byte {p : UInt8 → Prop} (h : ∀ n < 256, p (.ofNat n)) (b : UInt8) : p b := by
  have holds := h b.toNat b.toNat_lt
  rwa [UInt8.ofNat_toNat] at holds

theorem and_high_eq_zero_iff (b : UInt8) : b &&& 0x80 = 0 ↔ b < 0x80 := by
  apply forall_byte (p := fun b => b &&& 0x80 = 0 ↔ b < 0x80)
  decide +kernel

theorem and_upper_eq_zero_iff (b : UInt8) : b &&& 0xF0 = 0 ↔ b < 0x10 := by
  apply forall_byte (p := fun b => b &&& 0xF0 = 0 ↔ b < 0x10)
  decide +kernel

theorem toNat_and_low (b : UInt8) : (b &&& 0x7F).toNat = b.toNat % 128 := by
  rw [UInt8.toNat_and]
  exact Nat.and_two_pow_sub_one_eq_mod b.toNat 7

theorem toNat_or_high {b : UInt8} (h : b.toNat < 128) : (b ||| 0x80).toNat = b.toNat + 128 := by
  have sum : 2 ^ 7 * 1 + b.toNat = 2 ^ 7 * 1 ||| b.toNat := Nat.two_pow_add_eq_or_of_lt h 1
  rw [UInt8.toNat_or, Nat.or_comm, Nat.add_comm]
  exact sum.symm

/-! ### Writing with shifts -/

theorem toNat_shiftRight_seven (v : UInt32) : (v >>> 7).toNat = v.toNat / 128 := by
  rw [UInt32.toNat_shiftRight]
  exact Nat.shiftRight_eq_div_pow v.toNat 7

theorem shiftRight_seven_eq_zero_iff (v : UInt32) : v >>> 7 = 0 ↔ v.toNat < 128 := by
  rw [← UInt32.toNat_inj, toNat_shiftRight_seven]
  simp [Nat.div_eq_zero_iff]

/-- Writes the lowest seven bits of a word, and the others after them as long as there are any. -/
def shiftOut (v : UInt32) : List UInt8 :=
  let low := (v &&& 0x7F).toUInt8
  if v >>> 7 = 0 then [low] else (low ||| 0x80) :: shiftOut (v >>> 7)
termination_by v.toNat
decreasing_by
  have more := mt (shiftRight_seven_eq_zero_iff v).2 ‹_›
  rw [toNat_shiftRight_seven]
  omega

theorem toNat_low (v : UInt32) : (v &&& 0x7F).toUInt8.toNat = v.toNat % 128 := by
  have masked : v.toNat &&& 127 = v.toNat % 128 := Nat.and_two_pow_sub_one_eq_mod v.toNat 7
  rw [UInt32.toNat_toUInt8, UInt32.toNat_and, show (0x7F : UInt32).toNat = 127 from rfl, masked]
  omega

/-- One turn of the loop in arithmetic. -/
theorem shiftOut_eq (v : UInt32) : shiftOut v =
    if v.toNat < 128 then [.ofNat v.toNat]
    else .ofNat (v.toNat % 128 + 128) :: shiftOut (v >>> 7) := by
  have low := toNat_low v
  rw [shiftOut]
  simp only [shiftRight_seven_eq_zero_iff]
  split
  next small =>
    have whole : (v &&& 0x7F).toUInt8 = .ofNat v.toNat := by
      apply UInt8.toNat_inj.1
      rw [low, UInt8.toNat_ofNat']
      omega
    rw [whole]
  next =>
    have marked : (v &&& 0x7F).toUInt8 ||| 0x80 = .ofNat (v.toNat % 128 + 128) := by
      apply UInt8.toNat_inj.1
      rw [toNat_or_high (by omega), low, UInt8.toNat_ofNat']
      omega
    rw [marked]

theorem groups_eq_shiftOut {more : Nat} {v : UInt32} (h : v.toNat < 2 ^ (7 * more + 4)) :
    groups more v.toNat = shiftOut v := by
  induction more generalizing v with
  | zero =>
    have small : v.toNat < 128 := Nat.lt_trans h (by decide)
    rw [shiftOut_eq, if_pos small, groups]
  | succ more ih =>
    have step := two_pow_bits_succ more
    have others : groups more (v.toNat / 128) = shiftOut (v >>> 7) := by
      rw [← toNat_shiftRight_seven]
      apply ih
      rw [toNat_shiftRight_seven]
      omega
    rw [shiftOut_eq, groups, others]

theorem ofU32_eq_shiftOut (v : UInt32) : ofU32 v = shiftOut v := groups_eq_shiftOut v.toNat_lt

end Bytes

/-! ### Reading with shifts -/

@[simp] theorem ReadError.inside_inside (e : ReadError) : e.inside.inside = e.inside := by
  cases e <;> rfl

namespace Reader

variable {r s : Reader} {b : UInt8} {head tail : List UInt8} {more shift : Nat}

/-- The word with the seven lowest bits of a byte put at bit `shift`. -/
def withGroup (acc : UInt32) (shift : Nat) (b : UInt8) : UInt32 :=
  acc ||| .ofNat ((b &&& 0x7F).toNat <<< shift)

/-- Reads a number into a word. The groups that came before are in `acc`, and the next one belongs at
bit `shift`; at bit 28 there is room for four bits, and a byte with more is refused. -/
def shiftIn (acc : UInt32) (shift : Nat) (r : Reader) : Result UInt32 :=
  match h : r.byte with
  | (.error e, s) => (.error (if shift = 0 then e else e.inside), s)
  | (.ok b, s) =>
    if shift = 28 ∧ b &&& 0xF0 ≠ 0 then (.error (.overflow s.position), s)
    else
      let acc := withGroup acc shift b
      if b &&& 0x80 = 0 then (.ok acc, s) else shiftIn acc (shift + 7) s
termination_by r.rest.length
decreasing_by
  rw [(takes_of_byte h).rest]
  simp

variable {acc : UInt32}

theorem shiftIn_of_error {e : ReadError} (acc : UInt32) (shift : Nat)
    (h : r.byte = (.error e, s)) :
    shiftIn acc shift r = (.error (if shift = 0 then e else e.inside), s) := by
  rw [shiftIn]
  grind

theorem shiftIn_of_byte (acc : UInt32) (shift : Nat) (h : r.byte = (.ok b, s)) :
    shiftIn acc shift r =
      if shift = 28 ∧ 0x10 ≤ b then (.error (.overflow s.position), s)
      else if b < 0x80 then (.ok (withGroup acc shift b), s)
      else shiftIn (withGroup acc shift b) (shift + 7) s := by
  have low := Bytes.and_high_eq_zero_iff b
  have upper := Bytes.and_upper_eq_zero_iff b
  rw [shiftIn]
  grind

/-- A group is added above those that came before, and no bit of it is lost. -/
theorem toNat_withGroup (before : acc.toNat < 2 ^ shift)
    (fits : b.toNat % 128 * 2 ^ shift < 2 ^ 32) :
    (withGroup acc shift b).toNat = acc.toNat + b.toNat % 128 * 2 ^ shift := by
  have group : (UInt32.ofNat ((b &&& 0x7F).toNat <<< shift)).toNat = (b.toNat % 128) <<< shift := by
    rw [Bytes.toNat_and_low, UInt32.toNat_ofNat_of_lt']
    rwa [Nat.shiftLeft_eq]
  rw [withGroup, UInt32.toNat_or, group, Nat.or_comm, ← Nat.shiftLeft_add_eq_or_of_lt before,
    Nat.shiftLeft_eq, Nat.add_comm]

/-- A byte whose high bit is not set is the last group as it stands. -/
theorem withGroup_of_last (before : acc.toNat < 2 ^ shift) (ends : b < 0x80)
    (fits : b.toNat * 2 ^ shift < 2 ^ 32) :
    withGroup acc shift b = .ofNat (acc.toNat + b.toNat * 2 ^ shift) := by
  have whole : b.toNat % 128 = b.toNat := Nat.mod_eq_of_lt (UInt8.lt_iff_toNat_lt.1 ends)
  have sum := toNat_withGroup (b := b) before (by rwa [whole])
  rw [whole] at sum
  rw [← sum, UInt32.ofNat_toNat]

/-- From any turn of the loop on, the groups still to come are added to those that came before. -/
theorem shiftIn_eq_groups (last : shift + 7 * more = 28) (before : acc.toNat < 2 ^ shift) :
    shiftIn acc shift r = match r.groups more with
      | (.error e, s) => (.error (if shift = 0 then e else e.inside), s)
      | (.ok n, s) => (.ok (.ofNat (acc.toNat + n * 2 ^ shift)), s) := by
  -- `more` counts the turns left before bit 28, so every group but the last has room for seven bits
  induction more generalizing acc shift r with
  | zero =>
    obtain rfl : shift = 28 := by omega
    rw [groups]
    rcases hb : r.byte with ⟨e | b, s⟩
    · rw [shiftIn_of_error acc 28 hb]
    · rw [shiftIn_of_byte acc 28 hb]
      by_cases low : b < 0x10
      · have small : b.toNat < 16 := UInt8.lt_iff_toNat_lt.1 low
        have ends : b < 0x80 := UInt8.lt_trans low (by decide)
        have sum := withGroup_of_last before ends (by omega)
        simp only [UInt8.not_le.2 low, and_false, if_false, if_pos ends, if_pos low, sum]
      · simp [UInt8.not_lt.1 low, low, ReadError.inside]
  | succ more ih =>
    have wide : 2 ^ (shift + 7) = 128 * 2 ^ shift := by rw [Nat.pow_add, Nat.mul_comm]
    have most : 2 ^ (shift + 7) ≤ 2 ^ 28 := Nat.pow_le_pow_right (by decide) (by omega)
    rw [groups]
    rcases hb : r.byte with ⟨e | b, s⟩
    · rw [shiftIn_of_error acc shift hb]
    · rw [shiftIn_of_byte acc shift hb, if_neg (by omega)]
      by_cases ends : b < 0x80
      · have small : b.toNat < 128 := UInt8.lt_iff_toNat_lt.1 ends
        have group : b.toNat * 2 ^ shift ≤ 128 * 2 ^ shift := Nat.mul_le_mul_right _ small.le
        have sum := withGroup_of_last before ends (by omega)
        simp only [if_pos ends, sum]
      · have below : b.toNat % 128 < 128 := Nat.mod_lt _ (by decide)
        have group : (b.toNat % 128 + 1) * 2 ^ shift ≤ 128 * 2 ^ shift :=
          Nat.mul_le_mul_right _ below
        rw [Nat.add_mul, Nat.one_mul] at group
        have sum := toNat_withGroup (b := b) before (by omega)
        have others : shiftIn (withGroup acc shift b) (shift + 7) s = _ :=
          ih (by omega) (by omega)
        simp only [if_neg ends, others]
        rcases s.groups more with ⟨e | n, t⟩
        · -- the error is already one inside a number, in this turn as in the first one
          simp
        · simp only [sum, wide]
          congr 3
          ring

theorem u32_eq_shiftIn (r : Reader) : r.u32 = shiftIn 0 0 r := by
  rw [shiftIn_eq_groups (show 0 + 7 * 4 = 28 from rfl) (by decide), u32]
  rcases r.groups 4 with ⟨e | n, s⟩ <;> simp

end Reader

/-! ### How the bytes of a number end -/

namespace Bytes

variable {b c : UInt8} {bs head : List UInt8} {more n : Nat}

/-- The high bit of every byte is set, which says that another byte follows. -/
def Continued (bs : List UInt8) : Prop := ∀ b ∈ bs, 0x80 ≤ b

theorem continued_cons_iff : Continued (b :: bs) ↔ 0x80 ≤ b ∧ Continued bs := List.forall_mem_cons

/-- The bytes of `head` go on and `b` is the last one. At most `more` bytes can go on, and after so
many of them the last one has four bits. -/
structure Ends (more : Nat) (head : List UInt8) (b : UInt8) : Prop where
  continued : Continued head
  last : b < 0x80
  room : head.length < more ∨ head.length = more ∧ b ≤ 0x0F

/-- As many bytes as can go on have gone on, and the one after them has more than four bits. -/
structure Overflows (more : Nat) (head : List UInt8) (b : UInt8) : Prop where
  continued : Continued head
  full : head.length = more
  wide : 0x10 ≤ b

theorem Ends.cons (high : 0x80 ≤ c) (h : Ends more head b) : Ends (more + 1) (c :: head) b where
  continued := continued_cons_iff.2 ⟨high, h.continued⟩
  last := h.last
  room := by
    have room := h.room
    grind

theorem Overflows.cons (high : 0x80 ≤ c) (h : Overflows more head b) :
    Overflows (more + 1) (c :: head) b where
  continued := continued_cons_iff.2 ⟨high, h.continued⟩
  full := congrArg (· + 1) h.full
  wide := h.wide

/-- The bytes end a number, or go on for too long, or are cut off before that. -/
theorem exists_ending (more : Nat) (input : List UInt8) :
    (∃ head b tail, input = head ++ b :: tail ∧ Ends more head b) ∨
    (∃ head b tail, input = head ++ b :: tail ∧ Overflows more head b) ∨
    Continued input ∧ input.length ≤ more := by
  induction more generalizing input with
  | zero =>
    cases input with
    | nil => exact .inr (.inr ⟨by simp [Continued], Nat.le_refl 0⟩)
    | cons b tail =>
      by_cases low : b < 0x10
      · refine .inl ⟨[], b, tail, rfl, by simp [Continued], UInt8.lt_trans low (by decide), ?_⟩
        exact .inr ⟨rfl, by grind⟩
      · exact .inr (.inl ⟨[], b, tail, rfl, by simp [Continued], rfl, UInt8.not_lt.1 low⟩)
  | succ more ih =>
    cases input with
    | nil => exact .inr (.inr ⟨by simp [Continued], Nat.zero_le _⟩)
    | cons c input =>
      by_cases low : c < 0x80
      · exact .inl ⟨[], c, input, rfl, by simp [Continued], low, .inl (Nat.succ_pos more)⟩
      · have high := UInt8.not_lt.1 low
        obtain ⟨head, b, tail, rfl, ends⟩ | ⟨head, b, tail, rfl, overflows⟩ | ⟨continued, short⟩ :=
          ih input
        · exact .inl ⟨c :: head, b, tail, rfl, ends.cons high⟩
        · exact .inr (.inl ⟨c :: head, b, tail, rfl, overflows.cons high⟩)
        · exact .inr (.inr ⟨continued_cons_iff.2 ⟨high, continued⟩, Nat.succ_le_succ short⟩)

/-- A number that ends is spelled by the bytes up to its end. -/
theorem Ends.spells (h : Ends more head b) :
    Spells more (head ++ [b]) (groupSum (head ++ [b])) where
  nonempty := by simp
  bounded := by
    have room := h.room
    grind
  continued i d hd := by
    obtain before | at_end : (i < head.length ∧ d ∈ head) ∨ (i = head.length ∧ d = b) := by
      grind
    · have high := h.continued d before.2
      simpa [high] using before.1
    · have low := h.last
      grind
  final d hd := by
    have room := h.room
    grind
  value := rfl

end Bytes

/-! ### What comes of reading -/

namespace Reader

variable {r s : Reader} {b : UInt8} {bs head tail input : List UInt8} {more : Nat}

theorem byte_of_empty (steady : r.failsAt = none) (empty : r.rest = []) :
    r.byte = (.error .endOfInput, r) := by
  simp [byte, failed, steady, empty]

theorem groups_of_overflows (steady : r.failsAt = none) (taken : r.Takes (head ++ [b]) s)
    (overflows : Bytes.Overflows more head b) :
    r.groups more = (.error (.overflow s.position), s) := by
  obtain ⟨continued, rfl, wide⟩ := overflows
  induction head generalizing r with
  | nil =>
    have first := (byte_eq_ok_iff steady).2 taken
    simp [groups, first, UInt8.not_lt.2 wide]
  | cons c head ih =>
    obtain ⟨high, continued⟩ := Bytes.continued_cons_iff.1 continued
    obtain ⟨r₁, first, others⟩ := takes_cons_iff.1 taken
    have byte := (byte_eq_ok_iff steady).2 first
    have rest := ih (first.failsAt.trans steady) others continued
    simp [groups, byte, UInt8.not_lt.2 high, rest, ReadError.inside]

/-- Where the bytes end inside a number, all of them are read first. -/
theorem groups_of_continued (steady : r.failsAt = none) (taken : r.Takes bs s)
    (empty : s.rest = []) (continued : Bytes.Continued bs) (short : bs.length ≤ more) :
    r.groups more = (.error (if bs = [] then .endOfInput else .unexpectedEnd), s) := by
  induction bs generalizing r more with
  | nil =>
    obtain rfl := takes_nil_iff.1 taken
    cases more <;> simp [groups, byte_of_empty steady empty]
  | cons c bs ih =>
    obtain ⟨more, rfl⟩ : ∃ k, more = k + 1 := ⟨more - 1, by simp at short; omega⟩
    obtain ⟨high, continued⟩ := Bytes.continued_cons_iff.1 continued
    obtain ⟨r₁, first, others⟩ := takes_cons_iff.1 taken
    have byte := (byte_eq_ok_iff steady).2 first
    have rest := ih (first.failsAt.trans steady) others continued (Nat.le_of_succ_le_succ short)
    have inside : (if bs = [] then ReadError.endOfInput else .unexpectedEnd).inside =
        .unexpectedEnd := by
      split <;> rfl
    simp [groups, byte, UInt8.not_lt.2 high, rest, inside]

theorem u32_of_ends (tail : List UInt8) (ends : Bytes.Ends 4 head b) :
    (ofBytes (head ++ b :: tail)).u32 =
      (.ok (.ofNat (Bytes.groupSum (head ++ [b]))),
        { rest := tail, position := head.length + 1 }) := by
  have taken := ofBytes_takes (head ++ [b]) tail
  have number := (groups_eq_ok_iff rfl).2 ⟨_, ends.spells, taken⟩
  rw [List.append_assoc, List.singleton_append, List.length_append] at number
  simp only [u32, number, List.length_singleton]

theorem u32_of_overflows (tail : List UInt8) (overflows : Bytes.Overflows 4 head b) :
    (ofBytes (head ++ b :: tail)).u32 =
      (.error (.overflow 5), { rest := tail, position := 5 }) := by
  have taken := ofBytes_takes (head ++ [b]) tail
  have number := groups_of_overflows rfl taken overflows
  rw [List.append_assoc, List.singleton_append, List.length_append, overflows.full] at number
  simp only [u32, number, List.length_singleton]

theorem u32_of_cut (nonempty : input ≠ []) (continued : Bytes.Continued input)
    (short : input.length ≤ 4) :
    (ofBytes input).u32 = (.error .unexpectedEnd, { rest := [], position := input.length }) := by
  have taken := ofBytes_takes input []
  rw [List.append_nil] at taken
  have number := groups_of_continued rfl taken rfl continued short
  simp only [u32, number, if_neg nonempty]

/-- What comes of reading a number from bytes. -/
inductive NumberRead : List UInt8 → Result UInt32 → Prop where
  | value {head : List UInt8} {b : UInt8} (tail : List UInt8) (ends : Bytes.Ends 4 head b) :
      NumberRead (head ++ b :: tail)
        (.ok (.ofNat (Bytes.groupSum (head ++ [b]))), { rest := tail, position := head.length + 1 })
  | overflow {head : List UInt8} {b : UInt8} (tail : List UInt8)
      (overflows : Bytes.Overflows 4 head b) :
      NumberRead (head ++ b :: tail) (.error (.overflow 5), { rest := tail, position := 5 })
  | cut {input : List UInt8} (nonempty : input ≠ []) (continued : Bytes.Continued input)
      (short : input.length ≤ 4) :
      NumberRead input (.error .unexpectedEnd, { rest := [], position := input.length })
  | nothing : NumberRead [] (.error .endOfInput, { rest := [] })

/-- Every input has one of these outcomes. -/
theorem numberRead_of_u32 {result : Result UInt32} (read : (ofBytes input).u32 = result) :
    NumberRead input result := by
  subst read
  obtain ⟨head, b, tail, rfl, ends⟩ | ⟨head, b, tail, rfl, overflows⟩ | ⟨continued, short⟩ :=
    Bytes.exists_ending 4 input
  · rw [u32_of_ends tail ends]
    exact .value tail ends
  · rw [u32_of_overflows tail overflows]
    exact .overflow tail overflows
  · by_cases nonempty : input = []
    · subst nonempty
      exact .nothing
    · rw [u32_of_cut nonempty continued short]
      exact .cut nonempty continued short

theorem NumberRead.exists_takes {result : Result UInt32} (h : NumberRead input result) :
    ∃ bs, (ofBytes input).Takes bs result.2 ∧ bs.length ≤ 5 := by
  cases h with
  | @value head b tail ends =>
    have room := ends.room
    exact ⟨head ++ [b], ⟨by simp [ofBytes], by simp [ofBytes], rfl, rfl⟩, by grind⟩
  | @overflow head b tail overflows =>
    have full := overflows.full
    exact ⟨head ++ [b], ⟨by simp [ofBytes], by simp [ofBytes, full], rfl, rfl⟩, by simp [full]⟩
  | cut nonempty continued short =>
    exact ⟨input, ⟨by simp [ofBytes], by simp [ofBytes], rfl, rfl⟩, by omega⟩
  | nothing => exact ⟨[], .refl _, by simp⟩

/-- A number is read exactly if the bytes end one. -/
theorem u32_eq_ok_iff_ends {v : UInt32} :
    (ofBytes input).u32 = (.ok v, s) ↔
      ∃ head b tail, input = head ++ b :: tail ∧ Bytes.Ends 4 head b ∧
        v.toNat = Bytes.groupSum (head ++ [b]) ∧
        s = { rest := tail, position := head.length + 1 } := by
  constructor
  · intro read
    cases numberRead_of_u32 read with
    | value tail ends =>
      exact ⟨_, _, tail, rfl, ends, UInt32.toNat_ofNat_of_lt' ends.spells.lt, rfl⟩
  · rintro ⟨head, b, tail, rfl, ends, value, rfl⟩
    rw [u32_of_ends tail ends, ← value, UInt32.ofNat_toNat]

/-- A number is refused for its size exactly if its fifth byte has more than four bits. -/
theorem u32_eq_overflow_iff {p : Nat} :
    (ofBytes input).u32 = (.error (.overflow p), s) ↔
      p = 5 ∧ ∃ head b tail, input = head ++ b :: tail ∧ Bytes.Overflows 4 head b ∧
        s = { rest := tail, position := 5 } := by
  constructor
  · intro read
    cases numberRead_of_u32 read with
    | overflow tail overflows => exact ⟨rfl, _, _, tail, rfl, overflows, rfl⟩
  · rintro ⟨rfl, head, b, tail, rfl, overflows, rfl⟩
    exact u32_of_overflows tail overflows

theorem u32_eq_unexpectedEnd_iff :
    (ofBytes input).u32 = (.error .unexpectedEnd, s) ↔
      Bytes.Continued input ∧ 1 ≤ input.length ∧ input.length ≤ 4 ∧
        s = { rest := [], position := input.length } := by
  constructor
  · intro read
    cases numberRead_of_u32 read with
    | cut nonempty continued short =>
      exact ⟨continued, List.length_pos_iff.2 nonempty, short, rfl⟩
  · rintro ⟨continued, nonempty, short, rfl⟩
    exact u32_of_cut (List.length_pos_iff.1 nonempty) continued short

theorem u32_eq_endOfInput_iff :
    (ofBytes input).u32 = (.error .endOfInput, s) ↔ input = [] ∧ s = { rest := [] } := by
  constructor
  · intro read
    cases numberRead_of_u32 read with
    | nothing => exact ⟨rfl, rfl⟩
  · rintro ⟨rfl, rfl⟩
    rfl

/-- No bytes are read as a number that are shorter than what is written for it. -/
theorem length_ofU32_le {v : UInt32} (read : (ofBytes input).u32 = (.ok v, s)) :
    (Bytes.ofU32 v).length ≤ input.length := by
  obtain ⟨bs, spelled, taken⟩ := (u32_eq_ok_iff rfl).1 read
  obtain ⟨k, rfl⟩ := spelled.eq_pad
  have length := congrArg List.length taken.rest
  rw [List.length_append, Bytes.length_pad k (Bytes.groups_ne_nil 4 v.toNat)] at length
  simp only [ofBytes] at length
  rw [length, Bytes.ofU32]
  omega

/-- There is no device behind bytes that are given. -/
theorem u32_ne_device (input : List UInt8) (s : Reader) :
    (ofBytes input).u32 ≠ (.error .device, s) := by
  intro read
  cases numberRead_of_u32 read

/-- Reading a number takes at most five bytes. It gives the exact sum of the groups up to the first
byte whose high bit is not set, if this is among the first four or is the fifth and has four bits.
It fails at the fifth byte if that has more, and it fails where the bytes end before. A number is
read back from what is written for it, and from nothing shorter. Words of 32 bits are enough for
both. -/
theorem u32_sums_groups (input tail : List UInt8) (v : UInt32) :
    (∃ bs, (ofBytes input).Takes bs (ofBytes input).u32.2 ∧ bs.length ≤ 5) ∧
    (∀ n s, (ofBytes input).u32 = (.ok n, s) ↔
      ∃ head b rest, input = head ++ b :: rest ∧ Bytes.Ends 4 head b ∧
        n.toNat = Bytes.groupSum (head ++ [b]) ∧ s = { rest, position := head.length + 1 }) ∧
    (∀ head b, Bytes.Ends 4 head b → Bytes.groupSum (head ++ [b]) < 2 ^ 32) ∧
    (∀ p s, (ofBytes input).u32 = (.error (.overflow p), s) ↔
      p = 5 ∧ ∃ head b rest, input = head ++ b :: rest ∧ Bytes.Overflows 4 head b ∧
        s = { rest, position := 5 }) ∧
    (∀ s, (ofBytes input).u32 = (.error .unexpectedEnd, s) ↔
      Bytes.Continued input ∧ 1 ≤ input.length ∧ input.length ≤ 4 ∧
        s = { rest := [], position := input.length }) ∧
    (∀ s, (ofBytes input).u32 = (.error .endOfInput, s) ↔ input = [] ∧ s = { rest := [] }) ∧
    (∀ s, (ofBytes input).u32 ≠ (.error .device, s)) ∧
    (ofBytes (Bytes.ofU32 v ++ tail)).u32 =
      (.ok v, { rest := tail, position := (Bytes.ofU32 v).length }) ∧
    (∀ s, (ofBytes input).u32 = (.ok v, s) → (Bytes.ofU32 v).length ≤ input.length) ∧
    (∀ r : Reader, r.u32 = shiftIn 0 0 r) ∧ Bytes.ofU32 v = Bytes.shiftOut v := by
  have back : (ofBytes (Bytes.ofU32 v ++ tail)).u32 =
      (.ok v, { rest := tail, position := (Bytes.ofU32 v).length }) :=
    (u32_eq_ok_iff rfl).2 ⟨_, Bytes.spells_ofU32 v, ofBytes_takes _ tail⟩
  exact ⟨(numberRead_of_u32 rfl).exists_takes, fun n s => u32_eq_ok_iff_ends,
    fun head b ends => ends.spells.lt, fun p s => u32_eq_overflow_iff,
    fun s => u32_eq_unexpectedEnd_iff, fun s => u32_eq_endOfInput_iff, u32_ne_device input, back,
    fun s => length_ofU32_le, u32_eq_shiftIn, Bytes.ofU32_eq_shiftOut v⟩

end Reader

end StackMachine
