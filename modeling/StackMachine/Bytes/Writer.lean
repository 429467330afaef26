/-!
# Writing bytes

How numbers are written as bytes, and what a script of writes leaves behind.
-/

namespace StackMachine

namespace Bytes

/-- A number in groups of seven bits, lowest first, with the high bit set on all but the last. At
most `more` groups follow the first. -/
def groups : Nat → Nat → List UInt8
  | 0, n => [.ofNat n]
  | more + 1, n =>
    if n < 128 then [.ofNat n] else .ofNat (n % 128 + 128) :: groups more (n / 128)

/-- A 32-bit number in as few groups as it needs, which are at most five. -/
def ofU32 (v : UInt32) : List UInt8 := groups 4 v.toNat

/-- The lowest `width` digits of a number in base 256, lowest first. -/
def littleEndian : Nat → Nat → List UInt8
  | 0, _ => []
  | width + 1, n => .ofNat n :: littleEndian width (n / 256)

def ofU16 (v : UInt16) : List UInt8 := littleEndian 2 v.toNat

/-- Four bytes in two's complement, lowest first. -/
def ofS32 (v : Int32) : List UInt8 := littleEndian 4 v.toUInt32.toNat

end Bytes

inductive Write where
  | byte (b : UInt8)
  | bytes (bs : List UInt8)
  | u32 (v : UInt32)
  | u16 (v : UInt16)
  | s32 (v : Int32)
  /-- Asks for room in advance, which shows nowhere. -/
  | reserve (n : Nat)
  deriving DecidableEq, Repr

namespace Write

def encoded : Write → List UInt8
  | byte b => [b]
  | bytes bs => bs
  | u32 v => Bytes.ofU32 v
  | u16 v => Bytes.ofU16 v
  | s32 v => Bytes.ofS32 v
  | reserve _ => []

def run (script : List Write) : List UInt8 := script.flatMap encoded

/-- The number of bytes written after each write of a script, given those before it. -/
def lengths (before : Nat) : List Write → List Nat
  | [] => []
  | w :: script =>
    let n := before + w.encoded.length
    n :: lengths n script

end Write

end StackMachine
