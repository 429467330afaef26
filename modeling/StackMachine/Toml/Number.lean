/-!
# TOML numbers

Integers are decimal, with an optional sign and no leading zero, or hexadecimal, octal or binary
with a prefix. They fit 64 bits. Decimal numbers may have a fraction and an exponent, and are then
floats, which must not round to infinity. Single underscores may stand between digits.
-/

namespace StackMachine.Toml

/-- The value of a digit in a base up to sixteen. -/
def digit? (base : Nat) (c : Char) : Option Nat :=
  let value :=
    if '0' ≤ c ∧ c ≤ '9' then c.toNat - '0'.toNat
    else if 'a' ≤ c ∧ c ≤ 'f' then c.toNat - 'a'.toNat + 10
    else if 'A' ≤ c ∧ c ≤ 'F' then c.toNat - 'A'.toNat + 10
    else 16
  if value < base then some value else none

/-- The number that digits spell after those of `n`. At least one digit is needed, and an underscore
has to stand between two. -/
def digits? (base n : Nat) : List Char → Option Nat
  | [] => none
  | [c] => (digit? base c).map (n * base + ·)
  | c :: '_' :: rest =>
    match digit? base c with
    | some d => digits? base (n * base + d) rest
    | none => none
  | c :: rest =>
    match digit? base c with
    | some d => digits? base (n * base + d) rest
    | none => none

/-- Splits off an optional sign; `true` stands for a minus. -/
def sign : List Char → Bool × List Char
  | '-' :: rest => (true, rest)
  | '+' :: rest => (false, rest)
  | cs => (false, cs)

/-- Decimal digits that do not begin with a superfluous zero. -/
def decimal? (cs : List Char) : Option Nat :=
  match cs with
  | '0' :: _ :: _ => none
  | _ => digits? 10 0 cs

def unboundedInteger? : List Char → Option Int
  | '0' :: 'x' :: rest => (digits? 16 0 rest).map fun n => (n : Int)
  | '0' :: 'o' :: rest => (digits? 8 0 rest).map fun n => (n : Int)
  | '0' :: 'b' :: rest => (digits? 2 0 rest).map fun n => (n : Int)
  | cs =>
    match sign cs with
    | (negative, digits) =>
      (decimal? digits).map fun n => if negative then -(n : Int) else n

/-- An integer that fits 64 bits. -/
def integer? (cs : List Char) : Option Int :=
  match unboundedInteger? cs with
  | some n => if Int64.minValue.toInt ≤ n ∧ n ≤ Int64.maxValue.toInt then some n else none
  | none => none

/-! ### Floats -/

def isExponentMark (c : Char) : Bool := c = 'e' || c = 'E'

/-- The digits of a part of a float, without underscores, if it is well-formed. -/
def plainDigits? (cs : List Char) : Option (List Char) :=
  if (digits? 10 0 cs).isSome then some (cs.filter (· ≠ '_')) else none

/-- The digits after the point and what follows them. Without a point there are none. -/
def fraction? : List Char → Option (List Char)
  | [] => some []
  | '.' :: digits => plainDigits? digits
  | _ => none

def exponent? : List Char → Option Int
  | [] => some 0
  | _ :: rest =>
    match sign rest with
    | (negative, digits) =>
      (digits? 10 0 digits).map fun n => if negative then -(n : Int) else n

/-- Whether the number with these decimal digits, times a power of ten, is less than all numbers
that round to infinity with a precision of 53 bits and exponents up to 1023. -/
def isFinite (digits : List Char) (exponent : Int) : Bool :=
  let significant := digits.dropWhile (· = '0')
  let magnitude : Int := significant.length + exponent
  let bound := 1 <<< 1024 - 1 <<< 970
  if significant.isEmpty || magnitude < 300 then true
  else if 310 < magnitude then false
  else
    match digits? 10 0 significant with
    | none => true
    | some n =>
      if 0 ≤ exponent then n * Nat.pow 10 exponent.toNat < bound
      else n < bound * Nat.pow 10 (-exponent).toNat

/-- Whether the text is a float with a fraction, an exponent or both, or one of the special
floats. -/
def isFloat (cs : List Char) : Bool :=
  let body := (sign cs).2
  if body = ['i', 'n', 'f'] || body = ['n', 'a', 'n'] then true
  else
    let mantissa := body.takeWhile fun c => !isExponentMark c
    let whole := mantissa.takeWhile (· ≠ '.')
    match decimal? whole, plainDigits? whole, fraction? (mantissa.drop whole.length),
        exponent? (body.drop mantissa.length) with
    | some _, some whole, some fraction, some exponent =>
      body.any (fun c => c = '.' || isExponentMark c) &&
        isFinite (whole ++ fraction) (exponent - fraction.length)
    | _, _, _, _ => false

end StackMachine.Toml
