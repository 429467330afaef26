import StackMachine.Text.Letter

/-!
# Numerals

Decimal numerals are read digit by digit, and the first fault decides: a letter that is no digit
makes a numeral malformed, unless the digits before it have already left the range.
-/

namespace StackMachine.Numeral

/-- Why a text is no numeral of the wanted width. -/
inductive Fault where
  | malformed
  | outOfRange
  deriving DecidableEq, Repr

def Fault.reason : Fault → String
  | malformed => "invalid syntax"
  | outOfRange => "value out of range"

/-- The decimal digits after the value `n`, as long as the value stays at most `bound`. -/
def readDigits (bound n : Nat) : Text → Except Fault Nat
  | [] => .ok n
  | l :: rest =>
    match l.digit? with
    | none => .error .malformed
    | some d =>
      if n * 10 + d ≤ bound then readDigits bound (n * 10 + d) rest else .error .outOfRange

/-- Gives a magnitude its sign, if the result fits a two's complement word of `bits` bits. -/
def signed (bits : Nat) (negative : Bool) (n : Nat) : Except Fault Int :=
  if negative then
    if n ≤ 1 <<< (bits - 1) then .ok (-n) else .error .outOfRange
  else
    if n < 1 <<< (bits - 1) then .ok n else .error .outOfRange

/-- Splits off an optional sign; `true` stands for a minus. -/
def sign : Text → Bool × Text
  | .char '-' :: rest => (true, rest)
  | .char '+' :: rest => (false, rest)
  | t => (false, t)

/-- A decimal numeral with an optional sign, for a two's complement word of `bits` bits. -/
def read (bits : Nat) (t : Text) : Except Fault Int :=
  match sign t with
  | (_, []) => .error .malformed
  | (negative, digits) =>
    match readDigits (1 <<< bits - 1) 0 digits with
    | .ok n => signed bits negative n
    | .error e => .error e

/-- Decimal digits with a minus in front of a negative number. -/
def decimal (n : Int) : List Char :=
  if n < 0 then '-' :: Nat.toDigits 10 n.natAbs else Nat.toDigits 10 n.natAbs

/-- Fills up on the left to `width` characters. -/
def padLeft (fill : Char) (width : Nat) (s : String) : String :=
  String.ofList (List.replicate (width - s.length) fill) ++ s

/-- Fills up with spaces on the right to `width` characters. -/
def padRight (width : Nat) (s : String) : String :=
  s ++ String.ofList (List.replicate (width - s.length) ' ')

/-- Lower case hexadecimal digits, at least `width` of them. -/
def hex (width n : Nat) : String := padLeft '0' width (String.ofList (Nat.toDigits 16 n))

def hexByte (b : UInt8) : String := hex 2 b.toNat

end StackMachine.Numeral
