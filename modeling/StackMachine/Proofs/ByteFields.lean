import Mathlib.Algebra.BigOperators.Fin
import Mathlib.Tactic.Ring
import StackMachine.Bytes.Reader
import StackMachine.Bytes.Writer

/-!
# Numbers as bytes

What each read accepts, as a condition on the bytes it takes, and how that compares with what is
written. Fixed-width numbers have one spelling. A variable-length number has several: its last
group may be followed by groups that are zero, and the shortest spelling is the one written.
-/

namespace StackMachine

/-! ### Little-endian numbers -/

namespace Bytes

@[simp] theorem length_littleEndian (width n : Nat) : (littleEndian width n).length = width := by
  induction width generalizing n with
  | zero => rfl
  | succ width ih => simp [littleEndian, ih]

theorem littleEndian_of_read (bs : List UInt8) :
    littleEndian bs.length (Reader.littleEndian bs) = bs := by
  induction bs with
  | nil => rfl
  | cons b bs ih =>
    have hb := b.toNat_lt
    have tail : (b.toNat + 256 * Reader.littleEndian bs) / 256 = Reader.littleEndian bs := by omega
    have head : UInt8.ofNat (b.toNat + 256 * Reader.littleEndian bs) = b := by
      apply UInt8.toNat_inj.1
      rw [UInt8.toNat_ofNat']
      omega
    simp only [List.length_cons, littleEndian, Reader.littleEndian, tail, head, ih]

/-- The two's complement of a word: the bytes of the integer, by division that rounds down. -/
def ofSigned (v : Int32) : List UInt8 :=
  (List.range 4).map fun k => .ofInt (v.toInt / 256 ^ k)

theorem ofNat_eq_ofInt {m : Nat} {n : Int} (h : (m % 256 : Int) = n % 256) :
    UInt8.ofNat m = UInt8.ofInt n := by
  apply UInt8.toNat_inj.1
  rw [UInt8.ofInt, UInt8.toNat_ofNat', UInt8.toNat_ofNat']
  omega

theorem ofS32_eq_ofSigned (v : Int32) : ofS32 v = ofSigned v := by
  have hv : v.toInt = if 2 * v.toUInt32.toNat < 2 ^ 32 then (v.toUInt32.toNat : Int)
      else v.toUInt32.toNat - (2 ^ 32 : Nat) := BitVec.toInt_eq_toNat_cond v.toBitVec
  simp only [ofS32, littleEndian, ofSigned, List.range, List.range.loop, List.map_cons,
    List.map_nil, List.cons.injEq, and_true]
  refine ⟨ofNat_eq_ofInt ?_, ofNat_eq_ofInt ?_, ofNat_eq_ofInt ?_, ofNat_eq_ofInt ?_⟩ <;> omega

end Bytes

namespace Reader

theorem littleEndian_of_written (width n : Nat) :
    littleEndian (Bytes.littleEndian width n) = n % 256 ^ width := by
  induction width generalizing n with
  | zero => simp [Bytes.littleEndian, littleEndian, Nat.mod_one]
  | succ width ih =>
    have step : 256 ^ (width + 1) = 256 * 256 ^ width := Nat.pow_succ'
    rw [Bytes.littleEndian, littleEndian, UInt8.toNat_ofNat', ih, step, Nat.mod_mul]

theorem littleEndian_lt (bs : List UInt8) : littleEndian bs < 256 ^ bs.length := by
  have h := littleEndian_of_written bs.length (littleEndian bs)
  rw [Bytes.littleEndian_of_read] at h
  rw [h]
  exact Nat.mod_lt _ (Nat.pow_pos (by decide))

end Reader

/-! ### Bytes taken by a read -/

namespace Reader

variable {r s t : Reader}

/-- `s` is what `r` becomes when these bytes are taken from it. -/
structure Takes (r : Reader) (bs : List UInt8) (s : Reader) : Prop where
  rest : r.rest = bs ++ s.rest
  position : s.position = r.position + bs.length
  sized : s.sized = r.sized
  failsAt : s.failsAt = r.failsAt

theorem Takes.refl (r : Reader) : r.Takes [] r := ⟨rfl, rfl, rfl, rfl⟩

theorem Takes.trans {bs cs : List UInt8} (h : r.Takes bs s) (g : s.Takes cs t) :
    r.Takes (bs ++ cs) t where
  rest := by rw [h.rest, g.rest, List.append_assoc]
  position := by rw [g.position, h.position, List.length_append, Nat.add_assoc]
  sized := g.sized.trans h.sized
  failsAt := g.failsAt.trans h.failsAt

theorem takes_nil_iff : r.Takes [] s ↔ s = r := by
  constructor
  · rintro ⟨hr, hp, hs, hf⟩
    cases r
    cases s
    simp_all
  · rintro rfl
    exact .refl s

/-- Bytes that are taken together can be taken in two parts. -/
theorem takes_append_iff (bs cs : List UInt8) :
    r.Takes (bs ++ cs) t ↔ ∃ s, r.Takes bs s ∧ s.Takes cs t := by
  constructor
  · rintro ⟨hr, hp, hs, hf⟩
    refine ⟨{ r with rest := cs ++ t.rest, position := r.position + bs.length },
      ⟨by simp [hr], rfl, rfl, rfl⟩, ⟨rfl, ?_, hs, hf⟩⟩
    simp only [hp, List.length_append]
    omega
  · rintro ⟨s, h, g⟩
    exact h.trans g

theorem takes_cons_iff {b : UInt8} {bs : List UInt8} :
    r.Takes (b :: bs) t ↔ ∃ s, r.Takes [b] s ∧ s.Takes bs t :=
  takes_append_iff [b] bs

theorem ofBytes_takes (bs tail : List UInt8) :
    (ofBytes (bs ++ tail)).Takes bs { rest := tail, position := bs.length } :=
  ⟨rfl, (Nat.zero_add _).symm, rfl, rfl⟩

theorem takes_of_byte {b : UInt8} (h : r.byte = (.ok b, s)) : r.Takes [b] s := by
  unfold byte at h
  split at h
  · cases h
  · split at h
    · cases h
    next c rest hr =>
      cases h
      exact ⟨hr, rfl, rfl, rfl⟩

theorem byte_eq_ok_iff {b : UInt8} (steady : r.failsAt = none) :
    r.byte = (.ok b, s) ↔ r.Takes [b] s := by
  constructor
  · exact takes_of_byte
  · rintro ⟨hr, hp, hs, hf⟩
    cases s
    simp_all [byte, failed]

theorem bytes_eq_ok_iff {n : Nat} {bs : List UInt8} (steady : r.failsAt = none) :
    r.bytes n = (.ok bs, s) ↔ bs.length = n ∧ r.Takes bs s := by
  induction n generalizing r bs with
  | zero =>
    rw [List.length_eq_zero_iff]
    constructor
    · rintro ⟨⟩
      exact ⟨rfl, .refl _⟩
    · rintro ⟨rfl, h⟩
      rw [takes_nil_iff.1 h]
      rfl
  | succ n ih =>
    constructor
    · intro h
      unfold bytes at h
      split at h
      · cases h
      next b r₁ hb =>
        have first := (byte_eq_ok_iff steady).1 hb
        split at h
        · cases h
        next cs r₂ hcs =>
          cases h
          obtain ⟨hlen, others⟩ := (ih (first.failsAt.trans steady)).1 hcs
          exact ⟨by rw [List.length_cons, hlen], first.trans others⟩
    · rintro ⟨hlen, h⟩
      obtain ⟨b, cs, rfl⟩ := List.exists_cons_of_length_eq_add_one hlen
      obtain ⟨r₁, first, others⟩ := takes_cons_iff.1 h
      have rest := (ih (first.failsAt.trans steady)).2 ⟨Nat.succ.inj hlen, others⟩
      simp only [bytes, (byte_eq_ok_iff steady).2 first, rest]

end Reader

/-! ### Variable-length numbers -/

namespace Bytes

/-- The number that groups of seven bits stand for, lowest group first. -/
def groupSum (bs : List UInt8) : Nat :=
  ∑ i : Fin bs.length, bs[i].toNat % 128 * 2 ^ (7 * i.val)

/-- The bytes are a number in groups of seven bits, of which at most `more` follow the first: the
high bit is set on all bytes but the last, and the last allowed one holds four bits. -/
structure Spells (more : Nat) (bs : List UInt8) (n : Nat) : Prop where
  nonempty : 1 ≤ bs.length
  bounded : bs.length ≤ more + 1
  continued : ∀ i b, bs[i]? = some b → (0x80 ≤ b ↔ i + 1 < bs.length)
  final : ∀ b, bs[more]? = some b → b ≤ 0x0F
  value : groupSum bs = n

@[simp] theorem groupSum_nil : groupSum [] = 0 := rfl

theorem groupSum_cons (b : UInt8) (bs : List UInt8) :
    groupSum (b :: bs) = b.toNat % 128 + 128 * groupSum bs := by
  have first : groupSum (b :: bs) =
      b.toNat % 128 * 2 ^ 0 + ∑ i : Fin bs.length, bs[i].toNat % 128 * 2 ^ (7 * (i.val + 1)) :=
    Fin.sum_univ_succ fun i : Fin (bs.length + 1) => (b :: bs)[i].toNat % 128 * 2 ^ (7 * i.val)
  rw [first, groupSum, Finset.mul_sum, pow_zero, mul_one]
  congr 1
  refine Finset.sum_congr rfl fun i _ => ?_
  rw [Nat.mul_succ, pow_add]
  ring

theorem spells_singleton_iff {more n : Nat} {b : UInt8} :
    Spells more [b] n ↔ b < 0x80 ∧ (more = 0 → b < 0x10) ∧ n = b.toNat := by
  constructor
  · rintro ⟨_, _, hc, hf, rfl⟩
    have low : b < 0x80 := UInt8.not_le.1 fun h => absurd ((hc 0 b rfl).1 h) (by simp)
    refine ⟨low, ?_, ?_⟩
    · rintro rfl
      exact UInt8.lt_of_le_of_lt (hf b rfl) (by decide)
    · have : b.toNat < 128 := UInt8.lt_iff_toNat_lt.1 low
      simp only [groupSum_cons, groupSum_nil]
      omega
  · rintro ⟨low, hm, rfl⟩
    have hb : b.toNat < 128 := UInt8.lt_iff_toNat_lt.1 low
    refine ⟨by simp, by simp, ?_, ?_, ?_⟩
    · intro i c hi
      obtain ⟨rfl, rfl⟩ : i = 0 ∧ b = c := by simpa using List.getElem?_eq_some_iff.1 hi
      simpa using low
    · intro c hc
      obtain ⟨rfl, rfl⟩ : more = 0 ∧ b = c := by simpa using List.getElem?_eq_some_iff.1 hc
      exact UInt8.le_iff_toNat_le.2 (Nat.le_of_lt_succ (UInt8.lt_iff_toNat_lt.1 (hm rfl)))
    · simp only [groupSum_cons, groupSum_nil]
      omega

theorem spells_cons_iff {more n : Nat} {b c : UInt8} {bs : List UInt8} :
    Spells more (b :: c :: bs) n ↔
      ∃ k m, more = k + 1 ∧ 0x80 ≤ b ∧ Spells k (c :: bs) m ∧ n = b.toNat % 128 + 128 * m := by
  constructor
  · rintro ⟨_, hb, hc, hf, rfl⟩
    obtain ⟨k, rfl⟩ : ∃ k, more = k + 1 := ⟨more - 1, by simp at hb; omega⟩
    refine ⟨k, _, rfl, (hc 0 b rfl).2 (by simp), ⟨by simp, by simpa using hb, ?_, ?_, rfl⟩,
      groupSum_cons b (c :: bs)⟩
    · intro i d hi
      simpa using hc (i + 1) d (by simpa using hi)
    · intro d hd
      exact hf d (by simpa using hd)
  · rintro ⟨k, m, rfl, hb, ⟨hn, hl, hc, hf, rfl⟩, rfl⟩
    refine ⟨by simp, by simpa using hl, ?_, ?_, groupSum_cons b (c :: bs)⟩
    · intro i d hi
      cases i with
      | zero =>
        obtain rfl : b = d := by simpa using hi
        simpa using hb
      | succ i => simpa using hc i d (by simpa using hi)
    · intro d hd
      exact hf d (by simpa using hd)

theorem two_pow_bits_succ (more : Nat) :
    2 ^ (7 * (more + 1) + 4) = 128 * 2 ^ (7 * more + 4) := by
  rw [show 7 * (more + 1) + 4 = 7 + (7 * more + 4) by omega, Nat.pow_add]

/-- At most `more` groups of seven bits and one of four stand for a number of as many bits. -/
theorem Spells.lt {more n : Nat} {bs : List UInt8} (h : Spells more bs n) :
    n < 2 ^ (7 * more + 4) := by
  induction bs generalizing more n with
  | nil => exact absurd h.nonempty (by simp)
  | cons b bs ih =>
    cases bs with
    | nil =>
      obtain ⟨low, hm, rfl⟩ := spells_singleton_iff.1 h
      cases more with
      | zero => exact UInt8.lt_iff_toNat_lt.1 (hm rfl)
      | succ more =>
        have wide : 2 ^ 7 ≤ 2 ^ (7 * (more + 1) + 4) := Nat.pow_le_pow_right (by decide) (by omega)
        exact Nat.lt_of_lt_of_le (UInt8.lt_iff_toNat_lt.1 low) wide
    | cons c bs =>
      obtain ⟨k, m, rfl, _, tail, rfl⟩ := spells_cons_iff.1 h
      have hm := ih tail
      have step := two_pow_bits_succ k
      omega

theorem groups_ne_nil (more n : Nat) : groups more n ≠ [] := by
  cases more with
  | zero => simp [groups]
  | succ more =>
    rw [groups]
    split <;> simp

theorem groups_of_lt {more n : Nat} (h : n < 128) : groups more n = [.ofNat n] := by
  cases more with
  | zero => rfl
  | succ more => rw [groups, if_pos h]

/-- What is written spells the number, if it is within the bits that can be written. -/
theorem spells_groups {more n : Nat} (h : n < 2 ^ (7 * more + 4)) :
    Spells more (groups more n) n := by
  induction more generalizing n with
  | zero =>
    have hn : (UInt8.ofNat n).toNat = n := UInt8.toNat_ofNat_of_lt' (Nat.lt_trans h (by decide))
    have low : UInt8.ofNat n < 0x10 := UInt8.lt_iff_toNat_lt.2 (hn.trans_lt h)
    exact spells_singleton_iff.2 ⟨UInt8.lt_trans low (by decide), fun _ => low, hn.symm⟩
  | succ more ih =>
    by_cases low : n < 128
    · have hn : (UInt8.ofNat n).toNat = n := UInt8.toNat_ofNat_of_lt' (Nat.lt_trans low (by decide))
      rw [groups_of_lt low]
      exact spells_singleton_iff.2 ⟨UInt8.lt_iff_toNat_lt.2 (hn.trans_lt low), nofun, hn.symm⟩
    · have step := two_pow_bits_succ more
      have hb : (UInt8.ofNat (n % 128 + 128)).toNat = n % 128 + 128 :=
        UInt8.toNat_ofNat_of_lt' (show _ < 256 by omega)
      have tail := ih (n := n / 128) (by omega)
      rw [groups, if_neg low]
      obtain ⟨c, cs, hc⟩ := List.exists_cons_of_ne_nil (groups_ne_nil more (n / 128))
      rw [hc] at tail ⊢
      refine spells_cons_iff.2 ⟨more, n / 128, rfl, UInt8.le_iff_toNat_le.2 ?_, tail, ?_⟩
      · rw [hb]
        exact Nat.le_add_left 128 _
      · omega

theorem spells_ofU32 (v : UInt32) : Spells 4 (ofU32 v) v.toNat := spells_groups v.toNat_lt

/-- The same number with `k` more groups, all of them zero. -/
def pad : Nat → List UInt8 → List UInt8
  | 0, bs => bs
  | _ + 1, [] => []
  | k + 1, [b] => (b + 0x80) :: (List.replicate k 0x80 ++ [0])
  | k + 1, b :: c :: bs => b :: pad (k + 1) (c :: bs)

theorem pad_cons (k : Nat) (b : UInt8) {bs : List UInt8} (h : bs ≠ []) :
    pad k (b :: bs) = b :: pad k bs := by
  match k, bs, h with
  | 0, _ :: _, _ => rfl
  | k + 1, _ :: _, _ => rfl

theorem pad_zero_byte (k : Nat) : pad k [0] = List.replicate k 0x80 ++ [0] := by
  cases k with
  | zero => rfl
  | succ k => simp [pad, List.replicate_succ]

theorem length_pad (k : Nat) {bs : List UInt8} (h : bs ≠ []) :
    (pad k bs).length = bs.length + k := by
  induction bs with
  | nil => exact absurd rfl h
  | cons b bs ih =>
    by_cases hbs : bs = []
    · subst hbs
      cases k with
      | zero => rfl
      | succ k => simp [pad]; omega
    · rw [pad_cons k b hbs, List.length_cons, ih hbs, List.length_cons]
      omega

/-- Every spelling of a number is the written one, padded with zeros. -/
theorem Spells.eq_pad {more n : Nat} {bs : List UInt8} (h : Spells more bs n) :
    ∃ k, bs = pad k (groups more n) := by
  induction bs generalizing more n with
  | nil => exact absurd h.nonempty (by simp)
  | cons b bs ih =>
    cases bs with
    | nil =>
      obtain ⟨low, _, rfl⟩ := spells_singleton_iff.1 h
      refine ⟨0, ?_⟩
      rw [groups_of_lt (UInt8.lt_iff_toNat_lt.1 low)]
      simp [pad]
    | cons c bs =>
      obtain ⟨more, m, rfl, high, tail, rfl⟩ := spells_cons_iff.1 h
      obtain ⟨k, hk⟩ := ih tail
      have hb : 128 ≤ b.toNat := UInt8.le_iff_toNat_le.1 high
      have hlt := b.toNat_lt
      by_cases hm : m = 0
      · -- the groups after this one are all zero, so they are padding
        have last : UInt8.ofNat (b.toNat % 128 + 128 * m) + 0x80 = b := by
          apply UInt8.toNat_inj.1
          rw [UInt8.toNat_add, UInt8.toNat_ofNat', show (0x80 : UInt8).toNat = 128 from rfl]
          omega
        refine ⟨k + 1, ?_⟩
        rw [hk, hm, groups_of_lt (by decide), show UInt8.ofNat 0 = 0 from rfl, pad_zero_byte,
          groups_of_lt (by omega), pad, ← hm, last]
      · have first : UInt8.ofNat ((b.toNat % 128 + 128 * m) % 128 + 128) = b := by
          apply UInt8.toNat_inj.1
          rw [UInt8.toNat_ofNat']
          omega
        have others : (b.toNat % 128 + 128 * m) / 128 = m := by omega
        refine ⟨k, ?_⟩
        rw [groups, if_neg (by omega), first, others, pad_cons k b (groups_ne_nil more m), hk]

example : pad 2 (groups 4 5) = [0x85, 0x80, 0x00] := by decide

end Bytes

namespace Reader

variable {r s : Reader}

theorem groups_eq_ok_iff {more n : Nat} (steady : r.failsAt = none) :
    r.groups more = (.ok n, s) ↔ ∃ bs, Bytes.Spells more bs n ∧ r.Takes bs s := by
  constructor
  · intro h
    induction more generalizing r n with
    | zero =>
      unfold groups at h
      split at h
      · cases h
      next b r₁ hb =>
        have first := (byte_eq_ok_iff steady).1 hb
        split at h
        next low =>
          cases h
          have small := UInt8.lt_trans low (by decide : (0x10 : UInt8) < 0x80)
          exact ⟨[b], Bytes.spells_singleton_iff.2 ⟨small, fun _ => low, rfl⟩, first⟩
        · cases h
    | succ more ih =>
      unfold groups at h
      split at h
      · cases h
      next b r₁ hb =>
        have first := (byte_eq_ok_iff steady).1 hb
        split at h
        next low =>
          cases h
          exact ⟨[b], Bytes.spells_singleton_iff.2 ⟨low, nofun, rfl⟩, first⟩
        next high =>
          split at h
          · cases h
          next m r₂ hm =>
            cases h
            obtain ⟨bs, spelled, others⟩ := ih (first.failsAt.trans steady) hm
            match bs, spelled with
            | c :: bs, spelled =>
              exact ⟨b :: c :: bs, Bytes.spells_cons_iff.2
                ⟨more, m, rfl, UInt8.not_lt.1 high, spelled, rfl⟩, first.trans others⟩
  · rintro ⟨bs, spelled, taken⟩
    induction bs generalizing r more n with
    | nil => exact absurd spelled.nonempty (by simp)
    | cons b bs ih =>
      obtain ⟨r₁, first, others⟩ := takes_cons_iff.1 taken
      have hb := (byte_eq_ok_iff steady).2 first
      cases bs with
      | nil =>
        obtain ⟨low, hm, rfl⟩ := Bytes.spells_singleton_iff.1 spelled
        rw [takes_nil_iff.1 others]
        cases more with
        | zero => simp [groups, hb, hm rfl]
        | succ more => simp [groups, hb, low]
      | cons c bs =>
        obtain ⟨k, m, rfl, high, tail, rfl⟩ := Bytes.spells_cons_iff.1 spelled
        have rest := ih (first.failsAt.trans steady) tail others
        simp [groups, hb, UInt8.not_lt.2 high, rest]

/-! ### Numbers from other reads -/

/-- A number is read as groups or as bytes, of which only the value is made into another. -/
theorem u32_eq_map (r : Reader) : r.u32 = (r.groups 4).map (Except.map .ofNat) id := by
  rw [u32]
  rcases r.groups 4 with ⟨e | n, s⟩ <;> rfl

theorem u16_eq_map (r : Reader) :
    r.u16 = (r.bytes 2).map (Except.map fun bs => .ofNat (littleEndian bs)) id := by
  rw [u16]
  rcases r.bytes 2 with ⟨e | bs, s⟩ <;> rfl

theorem s32_eq_map (r : Reader) :
    r.s32 = (r.bytes 4).map (Except.map fun bs => (UInt32.ofNat (littleEndian bs)).toInt32) id := by
  rw [s32]
  rcases r.bytes 4 with ⟨e | bs, s⟩ <;> rfl

theorem u32_eq_ok_iff {v : UInt32} (steady : r.failsAt = none) :
    r.u32 = (.ok v, s) ↔ ∃ bs, Bytes.Spells 4 bs v.toNat ∧ r.Takes bs s := by
  rw [← groups_eq_ok_iff steady]
  constructor
  · intro h
    unfold u32 at h
    split at h
    · cases h
    next n r₁ hn =>
      cases h
      obtain ⟨bs, spelled, _⟩ := (groups_eq_ok_iff steady).1 hn
      rw [hn, UInt32.toNat_ofNat_of_lt' spelled.lt]
  · intro h
    simp [u32, h]

theorem littleEndian_eq_iff {width n : Nat} {bs : List UInt8} (hlen : bs.length = width)
    (hn : n < 256 ^ width) : littleEndian bs = n ↔ bs = Bytes.littleEndian width n := by
  subst hlen
  constructor
  · rintro rfl
    exact (Bytes.littleEndian_of_read bs).symm
  · intro h
    rw [h, littleEndian_of_written, Nat.mod_eq_of_lt (by simpa using hn)]

/-- A number of fixed width is read from the bytes that spell it and from no others. -/
theorem bytes_littleEndian_iff {width n : Nat} (steady : r.failsAt = none) (hn : n < 256 ^ width) :
    (∃ bs, r.bytes width = (.ok bs, s) ∧ littleEndian bs = n) ↔
      r.Takes (Bytes.littleEndian width n) s := by
  constructor
  · rintro ⟨bs, hbs, h⟩
    obtain ⟨hlen, taken⟩ := (bytes_eq_ok_iff steady).1 hbs
    rwa [← (littleEndian_eq_iff hlen hn).1 h]
  · intro taken
    have hlen := Bytes.length_littleEndian width n
    exact ⟨_, (bytes_eq_ok_iff steady).2 ⟨hlen, taken⟩, (littleEndian_eq_iff hlen hn).2 rfl⟩

/-- Reading a value of fixed width, where only the number `n` gives the value `v`. -/
theorem fixed_eq_ok_iff {α : Type} {width n : Nat} {f : Nat → α} {v : α}
    (steady : r.failsAt = none) (hn : n < 256 ^ width)
    (only : ∀ m < 256 ^ width, f m = v ↔ m = n) :
    (match r.bytes width with
      | (.error e, r) => (.error e, r)
      | (.ok bs, r) => (.ok (f (littleEndian bs)), r) : Result α) = (.ok v, s) ↔
      r.Takes (Bytes.littleEndian width n) s := by
  rw [← bytes_littleEndian_iff steady hn]
  constructor
  · intro h
    split at h
    · cases h
    next bs r₁ hbs =>
      cases h
      have lt := littleEndian_lt bs
      rw [((bytes_eq_ok_iff steady).1 hbs).1] at lt
      exact ⟨bs, hbs, (only _ lt).1 rfl⟩
  · rintro ⟨bs, hbs, h⟩
    simp [hbs, h, (only n hn).2 rfl]

theorem u16_eq_ok_iff {v : UInt16} (steady : r.failsAt = none) :
    r.u16 = (.ok v, s) ↔ r.Takes (Bytes.ofU16 v) s := by
  refine fixed_eq_ok_iff steady v.toNat_lt fun m hm => ?_
  rw [← UInt16.toNat_inj, UInt16.toNat_ofNat_of_lt' hm]

theorem s32_eq_ok_iff {v : Int32} (steady : r.failsAt = none) :
    r.s32 = (.ok v, s) ↔ r.Takes (Bytes.ofS32 v) s := by
  refine fixed_eq_ok_iff (f := fun m => (UInt32.ofNat m).toInt32) steady v.toUInt32.toNat_lt
    fun m hm => ?_
  constructor
  · rintro rfl
    exact (UInt32.toNat_ofNat_of_lt' hm).symm
  · rintro rfl
    simp

end Reader

end StackMachine
