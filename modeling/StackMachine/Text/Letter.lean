/-!
# Texts

A text is what a file or a line holds once its UTF-8 encoding has been read. A byte that is part of
no encoded character stays in the text as a letter of its own, so that reading a text loses nothing:
`Text.bytes` gives back the bytes that `Text.ofBytes` was given.
-/

namespace StackMachine

/-- A character, or a byte that is part of no UTF-8 encoded character. -/
inductive Letter where
  | char (c : Char)
  | stray (b : UInt8)
  deriving DecidableEq, Repr, Inhabited

abbrev Text := List Letter

namespace Utf8

/-- The bytes `80` to `BF` carry six bits each and follow a leading byte. -/
def isTail (b : UInt8) : Bool := 0x80 ≤ b && b ≤ 0xBF

/-- The six bits that a tail byte carries. -/
def tailBits (b : UInt8) : Nat := b.toNat % 64

/-- The character with code point `n`, if its shortest encoding needs a code point from `least`
on. -/
def charFrom? (least n : Nat) : Option Char :=
  if least ≤ n ∧ n.isValidChar then some (Char.ofNat n) else none

/-- The character encoded at the start of the bytes, with the number of tail bytes it takes.
Encodings that are too long for their code point, surrogates and code points past `10FFFF` are no
characters. -/
def first? : List UInt8 → Option (Char × Nat)
  | [] => none
  | a :: rest =>
    if a < 0x80 then some (Char.ofNat a.toNat, 0)
    else if a < 0xC0 then none
    else if a < 0xE0 then
      match rest with
      | b :: _ =>
        if isTail b then
          (charFrom? 0x80 (a.toNat % 32 * 64 + tailBits b)).map (·, 1)
        else none
      | _ => none
    else if a < 0xF0 then
      match rest with
      | b :: c :: _ =>
        if isTail b && isTail c then
          (charFrom? 0x800 ((a.toNat % 16 * 64 + tailBits b) * 64 + tailBits c)).map (·, 2)
        else none
      | _ => none
    else if a < 0xF8 then
      match rest with
      | b :: c :: d :: _ =>
        if isTail b && isTail c && isTail d then
          (charFrom? 0x10000
            (((a.toNat % 8 * 64 + tailBits b) * 64 + tailBits c) * 64 + tailBits d)).map (·, 3)
        else none
      | _ => none
    else none

end Utf8

namespace Letter

/-- The bytes of a letter: the encoding of a character, or the stray byte itself. -/
def bytes : Letter → List UInt8
  | char c => String.utf8EncodeChar c
  | stray b => [b]

def char? : Letter → Option Char
  | char c => some c
  | stray _ => none

/-- The value of a decimal digit. -/
def digit? : Letter → Option Nat
  | char c => if '0' ≤ c ∧ c ≤ '9' then some (c.toNat - '0'.toNat) else none
  | stray _ => none

end Letter

namespace Text

def ofChars (cs : List Char) : Text := cs.map .char

def ofString (s : String) : Text := ofChars s.toList

/-- The letters of bytes, of which the first `taken` belong to a character that has been read. -/
def ofBytesAfter : Nat → List UInt8 → Text
  | _, [] => []
  | taken + 1, _ :: rest => ofBytesAfter taken rest
  | 0, b :: rest =>
    match Utf8.first? (b :: rest) with
    | some (c, tails) => .char c :: ofBytesAfter tails rest
    | none => .stray b :: ofBytesAfter 0 rest

/-- Reads bytes as UTF-8, character by character, and keeps each byte that starts none. -/
def ofBytes (bytes : List UInt8) : Text := ofBytesAfter 0 bytes

def bytes (t : Text) : List UInt8 := t.flatMap Letter.bytes

/-- The text as a string, if it has no stray byte. -/
def string? (t : Text) : Option String := (t.mapM Letter.char?).map String.ofList

/-- The pieces between the letters that satisfy `p`, which belong to no piece. There is always one
piece more than there are such letters. -/
def splitOnP (p : Letter → Bool) : Text → List Text
  | [] => [[]]
  | l :: rest =>
    if p l then [] :: splitOnP p rest
    else
      match splitOnP p rest with
      | piece :: pieces => (l :: piece) :: pieces
      | [] => [[l]]

def split (c : Char) (t : Text) : List Text := splitOnP (· == .char c) t

end Text

end StackMachine
