import StackMachine.Failure

/-!
# Reading bytes

A reader holds the bytes that are still to come and the number of those already taken. Reading
never goes back: what a failed read has taken stays taken, and reading may go on after it.
-/

namespace StackMachine

inductive ReadError where
  /-- There was no byte left. -/
  | endOfInput
  /-- The bytes ended inside a value. -/
  | unexpectedEnd
  /-- A variable-length number does not fit 32 bits; its last byte ends at `position`. -/
  | overflow (position : Nat)
  /-- The device behind the reader failed. -/
  | device
  deriving DecidableEq, Repr

namespace ReadError

def failure : ReadError → Failure
  | endOfInput => .endOfInput
  | unexpectedEnd => .plain "unexpected EOF"
  | overflow position => .context ("at position " ++ toString position) (.plain "leb128: overflow")
  | device => .plain "device failure"

/-- The same error met after the first byte of a value. -/
def inside : ReadError → ReadError
  | endOfInput => unexpectedEnd
  | e => e

/-- The error met while reading the named field, with the position reached. -/
def located (field : String) (position : Nat) (e : ReadError) : Failure :=
  .context
    ("bytecode: " ++ (if field = "" then "" else field ++ " ") ++ "at position " ++
      toString position)
    e.failure

def isShort : ReadError → Bool
  | endOfInput | unexpectedEnd => true
  | overflow _ | device => false

end ReadError

/-- A source of bytes. `sized` says whether the number of bytes left can be asked for, and from the
position `failsAt` on every read fails. -/
structure Reader where
  rest : List UInt8
  position : Nat := 0
  sized : Bool := true
  failsAt : Option Nat := none
  deriving DecidableEq, Repr

namespace Reader

abbrev Result (α : Type) := Except ReadError α × Reader

def ofBytes (bytes : List UInt8) : Reader := { rest := bytes }

/-- Whether the device has no more bytes to give. -/
def failed (r : Reader) : Bool :=
  match r.failsAt with
  | some n => n ≤ r.position
  | none => false

/-- The number of bytes left, if it is known. -/
def left? (r : Reader) : Option Nat := if r.sized then some r.rest.length else none

def byte (r : Reader) : Result UInt8 :=
  if r.failed then (.error .device, r)
  else
    match r.rest with
    | [] => (.error .endOfInput, r)
    | b :: rest => (.ok b, { r with rest, position := r.position + 1 })

/-- Exactly `n` bytes. -/
def bytes : Nat → Reader → Result (List UInt8)
  | 0, r => (.ok [], r)
  | n + 1, r =>
    match r.byte with
    | (.error e, r) => (.error e.inside, r)
    | (.ok b, r) =>
      match bytes n r with
      | (.error e, r) => (.error e, r)
      | (.ok bs, r) => (.ok (b :: bs), r)

/-- A number in groups of seven bits, lowest first, of which at most `more` follow the first. The
high bit of a byte says that another follows; a last allowed byte holds four bits. -/
def groups : Nat → Reader → Result Nat
  | 0, r =>
    match r.byte with
    | (.error e, r) => (.error e, r)
    | (.ok b, r) => if b < 0x10 then (.ok b.toNat, r) else (.error (.overflow r.position), r)
  | more + 1, r =>
    match r.byte with
    | (.error e, r) => (.error e, r)
    | (.ok b, r) =>
      if b < 0x80 then (.ok b.toNat, r)
      else
        match groups more r with
        | (.error e, r) => (.error e.inside, r)
        | (.ok n, r) => (.ok (b.toNat % 128 + 128 * n), r)

/-- A 32-bit number of variable length, in at most five bytes. -/
def u32 (r : Reader) : Result UInt32 :=
  match r.groups 4 with
  | (.error e, r) => (.error e, r)
  | (.ok n, r) => (.ok (.ofNat n), r)

/-- The number that bytes spell in base 256, lowest byte first. -/
def littleEndian : List UInt8 → Nat
  | [] => 0
  | b :: bs => b.toNat + 256 * littleEndian bs

/-- Two bytes, lowest first. -/
def u16 (r : Reader) : Result UInt16 :=
  match r.bytes 2 with
  | (.error e, r) => (.error e, r)
  | (.ok bs, r) => (.ok (.ofNat (littleEndian bs)), r)

/-- Four bytes in two's complement, lowest first. -/
def s32 (r : Reader) : Result Int32 :=
  match r.bytes 4 with
  | (.error e, r) => (.error e, r)
  | (.ok bs, r) => (.ok (UInt32.ofNat (littleEndian bs)).toInt32, r)

end Reader

end StackMachine
