import StackMachine.Text.Numeral

/-!
# Numerals with a base

A numeral may begin with `0x`, `0o` or `0b`, in either case, to be read in base sixteen, eight or
two; one that begins with another zero is read in base eight. Single underscores may follow the
prefix and stand between digits. As with decimal numerals the first fault decides, but underscores
are looked at last.
-/

namespace StackMachine.Numeral

/-- The base of a numeral and its digits. A prefix is one only if something follows it. -/
def splitBase : List Char → Nat × List Char
  | '0' :: c :: d :: rest =>
    match c.toLower with
    | 'b' => (2, d :: rest)
    | 'o' => (8, d :: rest)
    | 'x' => (16, d :: rest)
    | _ => (8, c :: d :: rest)
  | '0' :: rest => (8, rest)
  | cs => (10, cs)

/-- The value of a digit in a base up to thirty-six. -/
def digitIn? (base : Nat) (c : Char) : Option Nat :=
  let value :=
    if '0' ≤ c ∧ c ≤ '9' then c.toNat - '0'.toNat
    else if 'a' ≤ c.toLower ∧ c.toLower ≤ 'z' then c.toLower.toNat - 'a'.toNat + 10
    else 36
  if value < base then some value else none

/-- The digits after the value `n`, as long as the value stays at most `bound`. -/
def readIn (base bound n : Nat) : List Char → Except Fault Nat
  | [] => .ok n
  | c :: rest =>
    if c = '_' then readIn base bound n rest
    else
      match digitIn? base c with
      | none => .error .malformed
      | some d =>
        if n * base + d ≤ bound then readIn base bound (n * base + d) rest
        else .error .outOfRange

/-- Whether each underscore has a digit before and after it. -/
def wellSpaced (afterDigit : Bool) : List Char → Bool
  | [] => true
  | '_' :: rest =>
    match afterDigit, rest with
    | true, c :: rest => c ≠ '_' && wellSpaced true rest
    | _, _ => false
  | _ :: rest => wellSpaced true rest

/-- Whether the underscores of a numeral stand where they may. -/
def underscoresFit (cs : List Char) : Bool :=
  match splitBase cs with
  | (base, digits) =>
    if base = 10 || digits.length + 1 = cs.length then wellSpaced false cs
    else wellSpaced true digits

/-- A numeral with an optional sign, for a two's complement word of `bits` bits. -/
def readPrefixed (bits : Nat) (cs : List Char) : Except Fault Int :=
  let (negative, body) :=
    match cs with
    | '-' :: rest => (true, rest)
    | '+' :: rest => (false, rest)
    | cs => (false, cs)
  if body.isEmpty then .error .malformed
  else
    match splitBase body with
    | (base, digits) =>
      match readIn base (1 <<< bits - 1) 0 digits with
      | .error e => .error e
      | .ok n => if underscoresFit body then signed bits negative n else .error .malformed

end StackMachine.Numeral
