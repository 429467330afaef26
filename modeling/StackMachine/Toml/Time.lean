import StackMachine.Toml.Number

/-!
# TOML dates and times

A date is `YYYY-MM-DD`, a time `HH:MM` with optional seconds and an optional fraction of a second.
A date and a time are joined by `T` or a space, and may be followed by an offset from universal
time.
-/

namespace StackMachine.Toml

/-- The number that two decimal digits spell, if it lies from `lo` to `hi`. -/
def twoDigits? (lo hi : Nat) (a b : Char) : Option Nat :=
  match digit? 10 a, digit? 10 b with
  | some a, some b => if lo ≤ 10 * a + b ∧ 10 * a + b ≤ hi then some (10 * a + b) else none
  | _, _ => none

def isLeapYear (year : Nat) : Bool := year % 4 = 0 && (year % 100 ≠ 0 || year % 400 = 0)

def daysIn (year month : Nat) : Nat :=
  match month with
  | 2 => if isLeapYear year then 29 else 28
  | 4 | 6 | 9 | 11 => 30
  | _ => 31

def afterDate? : List Char → Option (List Char)
  | a :: b :: c :: d :: '-' :: e :: f :: '-' :: g :: h :: rest =>
    match twoDigits? 0 99 a b, twoDigits? 0 99 c d, twoDigits? 1 12 e f with
    | some century, some year, some month =>
      (twoDigits? 1 (daysIn (100 * century + year) month) g h).map fun _ => rest
    | _, _, _ => none
  | _ => none

/-- What follows a fraction of a second, which is there only if a digit follows the point. -/
def afterFraction : List Char → List Char
  | '.' :: c :: rest => if c.isDigit then rest.dropWhile Char.isDigit else '.' :: c :: rest
  | cs => cs

def afterTime? : List Char → Option (List Char)
  | a :: b :: ':' :: c :: d :: rest =>
    match twoDigits? 0 23 a b, twoDigits? 0 59 c d with
    | some _, some _ =>
      match rest with
      | ':' :: e :: f :: rest => (twoDigits? 0 59 e f).map fun _ => afterFraction rest
      | _ => some rest
    | _, _ => none
  | _ => none

/-- Whether the text is an offset from universal time, or empty. -/
def isOffset : List Char → Bool
  | [] => true
  | [c] => c = 'Z' || c = 'z'
  | [s, a, b, ':', c, d] =>
    (s = '+' || s = '-') && (twoDigits? 0 24 a b).isSome && (twoDigits? 0 60 c d).isSome
  | _ => false

/-- Whether the text is a date, a time, or both. -/
def isTime (cs : List Char) : Bool :=
  match afterDate? cs with
  | some [] => true
  | some (c :: rest) =>
    (c = 'T' || c = 't' || c = ' ') &&
      match afterTime? rest with
      | some rest => isOffset rest
      | none => false
  | none => afterTime? cs = some []

end StackMachine.Toml
