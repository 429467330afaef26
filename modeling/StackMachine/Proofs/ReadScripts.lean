import StackMachine.Proofs.ByteFields

/-!
# Scripts of reads

What a script of writes leaves behind is read back by reads of the same kinds in the same order. All
five ways to write a value say where the value ends, so they can be mixed freely: each read gives the
value that was written and comes exactly as far as the write had come.
-/

namespace StackMachine

inductive Read where
  | byte
  | bytes (n : Nat)
  | u32
  | u16
  | s32
  deriving DecidableEq

namespace Read

/-- The value that is read, as the write that leaves it behind. -/
def run : Read → Reader → Reader.Result Write
  | byte, r => r.byte.map (Except.map .byte) id
  | bytes n, r => (r.bytes n).map (Except.map .bytes) id
  | u32, r => r.u32.map (Except.map .u32) id
  | u16, r => r.u16.map (Except.map .u16) id
  | s32, r => r.s32.map (Except.map .s32) id

/-- What the reads of a script give one after the other, each with the reader after it. A read that
fails does not keep the next one from being tried. -/
def runAll : List Read → Reader → List (Reader.Result Write)
  | [], _ => []
  | k :: script, r =>
    let result := k.run r
    result :: runAll script result.2

end Read

/-- The read of the same kind, with the length of the bytes where these are written as they are.
Nothing is read for room that was asked for. -/
def Write.read? : Write → Option Read
  | byte _ => some .byte
  | bytes bs => some (.bytes bs.length)
  | u32 _ => some .u32
  | u16 _ => some .u16
  | s32 _ => some .s32
  | reserve _ => none

variable {r s : Reader} {w : Write} {k : Read} {writes : List Write} {reads : List Read}
  {tail : List UInt8} {results : List (Reader.Result Write)}

/-- The bytes of a write are read as what was written, and no byte after them is touched. -/
theorem Read.run_of_takes (kind : w.read? = some k) (steady : r.failsAt = none)
    (taken : r.Takes w.encoded s) : k.run r = (.ok w, s) := by
  cases w with
  | byte b =>
    cases kind
    rw [run, (Reader.byte_eq_ok_iff steady).2 taken]
    rfl
  | bytes bs =>
    cases kind
    have read : r.bytes bs.length = (.ok bs, s) := (Reader.bytes_eq_ok_iff steady).2 ⟨rfl, taken⟩
    rw [run, read]
    rfl
  | u32 v =>
    cases kind
    rw [run, (Reader.u32_eq_ok_iff steady).2 ⟨_, Bytes.spells_ofU32 v, taken⟩]
    rfl
  | u16 v =>
    cases kind
    rw [run, (Reader.u16_eq_ok_iff steady).2 taken]
    rfl
  | s32 v =>
    cases kind
    rw [run, (Reader.s32_eq_ok_iff steady).2 taken]
    rfl
  | reserve n => cases kind

/-- The results give back what was written, and each time the reader has come as far as the writer
had, with the other bytes still to come. -/
structure ReadBack (r : Reader) (writes : List Write) (results : List (Reader.Result Write)) :
    Prop where
  values : results.map Prod.fst = writes.map .ok
  positions : results.map (·.2.position) = Write.lengths r.position writes
  sized : ∀ result ∈ results, result.2.sized = r.sized
  total : ∀ result ∈ results,
    result.2.position + result.2.rest.length = r.position + r.rest.length

theorem ReadBack.nil (r : Reader) : ReadBack r [] [] := ⟨rfl, rfl, by simp, by simp⟩

theorem ReadBack.cons (taken : r.Takes w.encoded s) (h : ReadBack s writes results) :
    ReadBack r (w :: writes) ((.ok w, s) :: results) where
  values := by rw [List.map_cons, List.map_cons, h.values]
  positions := by
    rw [List.map_cons, h.positions, Write.lengths, taken.position]
  sized := by
    have first := taken.sized
    have others := h.sized
    grind
  total := by
    have first : s.position + s.rest.length = r.position + r.rest.length := by
      rw [taken.position, taken.rest, List.length_append, Nat.add_assoc]
    have others := h.total
    grind

/-- Writes are read back one after the other. -/
theorem readBack_runAll (kinds : writes.map Write.read? = reads.map some)
    (steady : r.failsAt = none) (rest : r.rest = Write.run writes ++ tail) :
    ReadBack r writes (Read.runAll reads r) := by
  induction writes generalizing reads r with
  | nil =>
    obtain rfl : reads = [] := by simpa using kinds.symm
    exact .nil r
  | cons w writes ih =>
    cases reads with
    | nil => simp at kinds
    | cons k reads =>
      obtain ⟨kind, kinds⟩ := List.cons.inj kinds
      let s : Reader :=
        { r with rest := Write.run writes ++ tail, position := r.position + w.encoded.length }
      have taken : r.Takes w.encoded s := ⟨by simp [rest, s, Write.run], rfl, rfl, rfl⟩
      rw [Read.runAll, Read.run_of_takes kind steady taken]
      exact .cons taken (ih kinds steady rfl)

namespace Read

/-- Whatever is written and whatever bytes follow, reads of the same kinds give the values that were
written. After each of them the reader is where the writer was, and its position and the bytes left
make up all bytes. -/
theorem reads_give_back_writes (writes : List Write) (reads : List Read) (tail : List UInt8)
    (kinds : writes.map Write.read? = reads.map some) :
    let all := Write.run writes ++ tail
    let results := runAll reads (.ofBytes all)
    results.map Prod.fst = writes.map .ok ∧
    results.map (·.2.position) = Write.lengths 0 writes ∧
    ∀ result ∈ results, ∃ left, result.2.left? = some left ∧
      result.2.position + left = all.length := by
  intro all results
  have back : ReadBack (.ofBytes all) writes results := readBack_runAll kinds rfl rfl
  refine ⟨back.values, back.positions, ?_⟩
  intro result mem
  have sized : result.2.sized = true := back.sized result mem
  have total : result.2.position + result.2.rest.length = 0 + all.length := back.total result mem
  refine ⟨result.2.rest.length, ?_, ?_⟩
  · rw [Reader.left?, if_pos sized]
  · rw [total, Nat.zero_add]

/-- One write of each kind, with numbers at the ends of their ranges, and a byte behind them that
would go on if it belonged to a number. -/
theorem reads_give_back_extremes :
    let writes : List Write :=
      [.u32 0xFFFFFFFF, .byte 0x80, .s32 (-2147483648), .bytes [], .u16 0xFFFF, .bytes [1, 2]]
    let results :=
      runAll [.u32, .byte, .s32, .bytes 0, .u16, .bytes 2] (.ofBytes (Write.run writes ++ [0x80]))
    results.map Prod.fst = writes.map .ok ∧
    results.map (·.2.position) = [5, 6, 10, 10, 12, 14] := by
  intro writes results
  obtain ⟨values, positions, -⟩ := reads_give_back_writes writes
    [.u32, .byte, .s32, .bytes 0, .u16, .bytes 2] [0x80] rfl
  exact ⟨values, positions⟩

end Read

end StackMachine
