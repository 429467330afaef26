/-!
# CBOR data items

CBOR encodes a data item as a head, which holds a type and a number, and the content that the head
announces. Arrays, maps and strings either announce their length or go on until a break byte.
`Item.decode?` accepts exactly one well-formed item that keeps to the limits on nesting and length.
-/

namespace StackMachine.Cbor

/-- A data item. Strings are kept in the chunks that they were sent in, and the entries of a map in
their order. -/
inductive Item where
  | unsigned (n : Nat)
  /-- The number `-1 - n`. -/
  | negative (n : Nat)
  | bytes (chunks : List (List UInt8))
  | text (chunks : List (List UInt8))
  | array (items : List Item)
  /-- The keys and values of a map, in turn. -/
  | map (items : List Item)
  | tagged (tag : Nat) (item : Item)
  /-- A simple value: `20` and `21` are false and true, `22` and `23` null and undefined. -/
  | simple (n : Nat)
  | float (width n : Nat)
  deriving Repr, Inhabited

/-- Arrays and maps nest at most this deep. -/
def maxNesting : Nat := 32

/-- An array has at most this many elements, a map at most this many entries. -/
def maxLength : Nat := 131072

/-- The number that bytes spell in base 256, highest byte first. -/
def bigEndian (bytes : List UInt8) : Nat := bytes.foldl (fun n b => n * 256 + b.toNat) 0

/-- The last `width` digits of a number in base 256, highest first. -/
def bigEndianBytes : Nat → Nat → List UInt8
  | 0, _ => []
  | width + 1, n => .ofNat (n >>> (8 * width)) :: bigEndianBytes width n

/-! ### Writing -/

/-- The shortest head with the given major type and number. -/
def head (major n : Nat) : List UInt8 :=
  let lead (info : Nat) : UInt8 := .ofNat (major * 32 + info)
  if n < 24 then [lead n]
  else if n < 0x100 then lead 24 :: bigEndianBytes 1 n
  else if n < 0x10000 then lead 25 :: bigEndianBytes 2 n
  else if n < 0x100000000 then lead 26 :: bigEndianBytes 4 n
  else lead 27 :: bigEndianBytes 8 n

def encodeInt (n : Int) : List UInt8 :=
  if 0 ≤ n then head 0 n.toNat else head 1 (-1 - n).toNat

def encodeText (s : String) : List UInt8 := head 3 s.utf8ByteSize ++ s.toUTF8.toList

def encodeBool (b : Bool) : List UInt8 := if b then [0xF5] else [0xF4]

def encodeNull : List UInt8 := [0xF6]

/-! ### Reading -/

/-- The additional information of a head: a number, or the mark of an unknown length. -/
inductive Info where
  | direct (n : Nat)
  /-- A number in bytes of its own, `width` of them. -/
  | sized (width n : Nat)
  | untilBreak
  deriving DecidableEq, Repr

/-- The first `n` elements and the rest, if there are that many. -/
def splitExact {α : Type} : Nat → List α → Option (List α × List α)
  | 0, rest => some ([], rest)
  | _ + 1, [] => none
  | n + 1, a :: rest => (splitExact n rest).map fun (as, rest) => (a :: as, rest)

/-- The major type and the additional information at the start of the bytes. -/
def readHead : List UInt8 → Option (Nat × Info × List UInt8)
  | [] => none
  | b :: rest =>
    let major := b.toNat / 32
    let sized (width : Nat) :=
      (splitExact width rest).map fun (bytes, rest) => (major, .sized width (bigEndian bytes), rest)
    match b.toNat % 32 with
    | 24 => sized 1
    | 25 => sized 2
    | 26 => sized 4
    | 27 => sized 8
    | 28 | 29 | 30 => none
    | 31 => some (major, .untilBreak, rest)
    | n => some (major, .direct n, rest)

def Info.number? : Info → Option Nat
  | direct n | sized _ n => some n
  | untilBreak => none

/-- The chunks of a string up to the break. All have the major type of the string, and each
announces its length. -/
def readChunks (major : Nat) : Nat → List UInt8 → Option (List (List UInt8) × List UInt8)
  | 0, _ => none
  | fuel + 1, bytes =>
    match bytes with
    | 0xFF :: rest => some ([], rest)
    | _ =>
      match readHead bytes with
      | some (type, info, rest) =>
        if type ≠ major then none
        else do
          let n ← info.number?
          let (chunk, rest) ← splitExact n rest
          let (chunks, rest) ← readChunks major fuel rest
          some (chunk :: chunks, rest)
      | none => none

/-- The chunks of a string whose head has been read. -/
def readString (major : Nat) (info : Info) (bytes : List UInt8) :
    Option (List (List UInt8) × List UInt8) :=
  match info.number? with
  | some n => (splitExact n bytes).map fun (chunk, rest) => ([chunk], rest)
  | none => readChunks major (bytes.length + 1) bytes

/-- What the head of a simple value or a float stands for. -/
def simpleItem : Info → Option Item
  | .direct n => some (.simple n)
  | .sized 1 n => if n < 32 then none else some (.simple n)
  | .sized width n => some (.float width n)
  | .untilBreak => none

mutual

/-- Reads an item inside `nesting` arrays and maps. `tagged` says whether the item is the content of
a tag, in which case a further tag counts as a level of nesting. -/
def readItem : Nat → Nat → Bool → List UInt8 → Option (Item × List UInt8)
  | 0, _, _, _ => none
  | fuel + 1, nesting, isTagged, bytes =>
    match readHead bytes with
    | none => none
    | some (0, info, rest) => info.number?.map fun n => (.unsigned n, rest)
    | some (1, info, rest) => info.number?.map fun n => (.negative n, rest)
    | some (2, info, rest) =>
      (readString 2 info rest).map fun (chunks, rest) => (.bytes chunks, rest)
    | some (3, info, rest) =>
      (readString 3 info rest).map fun (chunks, rest) => (.text chunks, rest)
    | some (4, info, rest) =>
      if maxNesting ≤ nesting then none
      else
        match info.number? with
        | some n =>
          if maxLength < n then none
          else
            (readItems fuel (nesting + 1) n [] rest).map fun (items, rest) => (.array items, rest)
        | none =>
          (readUntilBreak fuel (nesting + 1) maxLength [] rest).map fun (items, rest) =>
            (.array items, rest)
    | some (5, info, rest) =>
      if maxNesting ≤ nesting then none
      else
        match info.number? with
        | some n =>
          if maxLength < n then none
          else
            (readItems fuel (nesting + 1) (2 * n) [] rest).map fun (items, rest) =>
              (.map items, rest)
        | none =>
          match readUntilBreak fuel (nesting + 1) (2 * maxLength) [] rest with
          | some (items, rest) => if items.length % 2 = 0 then some (.map items, rest) else none
          | none => none
    | some (6, info, rest) =>
      let nesting := if isTagged then nesting + 1 else nesting
      if maxNesting < nesting then none
      else
        match info.number? with
        | some tag =>
          (readItem fuel nesting true rest).map fun (item, rest) => (.tagged tag item, rest)
        | none => none
    | some (_, info, rest) => (simpleItem info).map fun item => (item, rest)

/-- Reads `n` items in front of which those of `acc` came, last first. -/
def readItems : Nat → Nat → Nat → List Item → List UInt8 → Option (List Item × List UInt8)
  | 0, _, _, _, _ => none
  | _ + 1, _, 0, acc, bytes => some (acc.reverse, bytes)
  | fuel + 1, nesting, n + 1, acc, bytes =>
    match readItem fuel nesting false bytes with
    | some (item, rest) => readItems fuel nesting n (item :: acc) rest
    | none => none

/-- Reads items up to the break, at most `room` of them. -/
def readUntilBreak : Nat → Nat → Nat → List Item → List UInt8 → Option (List Item × List UInt8)
  | 0, _, _, _, _ => none
  | fuel + 1, nesting, room, acc, bytes =>
    match bytes with
    | 0xFF :: rest => some (acc.reverse, rest)
    | _ =>
      match room, readItem fuel nesting false bytes with
      | room + 1, some (item, rest) => readUntilBreak fuel nesting room (item :: acc) rest
      | _, _ => none

end

/-- The item that the bytes encode, with no bytes left over. Every read takes a byte or ends an
array or a map, so that the fuel suffices. -/
def Item.decode? (bytes : List UInt8) : Option Item :=
  match readItem (2 * bytes.length + 2) 0 false bytes with
  | some (item, []) => some item
  | _ => none

end StackMachine.Cbor
