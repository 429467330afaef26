import StackMachine.Cbor.Item
import StackMachine.Failure
import StackMachine.Snapshot
import StackMachine.Text.Case

/-!
# Encoded snapshots

A snapshot is stored as one CBOR map with the keys `1` to `4`, for the stack, the program, the index
of the next instruction and whether the program has ended. An instruction is a map with the keys
`Opcode` and `Operand`. What is absent, the stack or the program, is null.

Writing uses the shortest form of everything. Reading allows any form: keys in any order, keys that
are not known, tags around values, and null or a missing key for a value that is zero or absent. Of
several entries for one key the first counts, and the others are not looked at.
-/

namespace StackMachine

namespace Cbor

/-- A key of a map that stands for the fields of a record. -/
inductive Key where
  | number (n : Int)
  | name (s : String)
  deriving DecidableEq, Repr

namespace Item

/-- A key is a number of at least `-2 ^ 63`, or a text of which every chunk is valid. -/
def key? : Item → Option Key
  | unsigned n => some (.number n)
  | negative n => if n < 1 <<< 63 then some (.number (-1 - n)) else none
  | text chunks =>
    (chunks.mapM fun chunk => (Text.ofBytes chunk).string?).map fun parts =>
      .name (String.join parts)
  | _ => none

/-- The entries of a map, if all of its keys can be keys of a record. -/
def entries? : List Item → Option (List (Key × Item))
  | key :: value :: rest =>
    match key.key?, entries? rest with
    | some k, some entries => some ((k, value) :: entries)
    | _, _ => none
  | _ => some []

/-- Whether a tag admits this content: a date is a text, a time a number, and a big number is
made of bytes. -/
def admits (tag : Nat) : Item → Bool
  | text _ => tag ∉ [1, 2, 3]
  | unsigned _ | negative _ | float _ _ => tag ∉ [0, 2, 3]
  | bytes _ => tag ∉ [0, 1]
  | _ => tag ∉ [0, 1, 2, 3]

/-- The item inside all tags. The tags `2` and `3` make numbers of bytes, and other tags mean
nothing. -/
def content? : Item → Option Item
  | tagged tag item =>
    if !item.admits tag then none
    else
      match tag, item with
      | 2, bytes chunks => some (unsigned (bigEndian chunks.flatten))
      | 3, bytes chunks => some (negative (bigEndian chunks.flatten))
      | _, item => item.content?
  | item => some item

/-- Null and undefined. -/
def isNull : Item → Bool
  | simple n => n = 22 || n = 23
  | _ => false

/-- Reads an item inside its tags; null stands for `absent`. -/
def read? {α : Type} (absent : α) (present : Item → Option α) (item : Item) : Option α :=
  match item.content? with
  | none => none
  | some content => if content.isNull then some absent else present content

/-- A number from `lo` to `hi`. Simple values without a meaning of their own are numbers too. -/
def integer? (lo hi : Int) (item : Item) : Option Int :=
  let within (n : Int) : Option Int := if lo ≤ n ∧ n ≤ hi then some n else none
  match item with
  | unsigned n => within n
  | negative n => within (-1 - n)
  | simple n => if n < 20 || 32 ≤ n then within n else none
  | _ => none

def bool? : Item → Option Bool
  | simple 20 => some false
  | simple 21 => some true
  | _ => none

def array? {α : Type} (element : Item → Option α) : Item → Option (List α)
  | array items => items.mapM element
  | _ => none

end Item

/-- Reads the value of the first entry whose key is one of those wanted; without such an entry the
value is `absent`. -/
def field? {α : Type} (wanted : Key → Bool) (absent : α) (read : Item → Option α)
    (entries : List (Key × Item)) : Option α :=
  match entries.find? (wanted ·.1) with
  | some (_, item) => read item
  | none => some absent

/-- Keys that are the number `n` or its numeral. -/
def Key.isNumber (n : Nat) : Key → Bool
  | number m => m = n
  | name s => s = toString n

/-- Keys that are a name up to the case of its letters. -/
def Key.isName (name : String) : Key → Bool
  | number _ => false
  | .name s => sameName name s

def word? : Item → Option Int32 :=
  Item.read? 0 fun item => (item.integer? Int32.minValue.toInt Int32.maxValue.toInt).map .ofInt

def index? : Item → Option Int :=
  Item.read? 0 (Item.integer? Int64.minValue.toInt Int64.maxValue.toInt)

def tag? : Item → Option UInt8 :=
  Item.read? 0 fun item => (item.integer? 0 255).map fun n => .ofNat n.toNat

def instruction? : Item → Option Instruction :=
  Item.read? ⟨0, 0⟩ fun
    | .map items =>
      match Item.entries? items with
      | none => none
      | some entries =>
        match field? (Key.isName "Opcode") 0 tag? entries,
            field? (Key.isName "Operand") 0 word? entries with
        | some tag, some operand => some ⟨tag, operand⟩
        | _, _ => none
    | _ => none

end Cbor

namespace Snapshot

open Cbor

/-- An array, or null if there is none. -/
def encodeArray {α : Type} (element : α → List UInt8) : Option (List α) → List UInt8
  | none => encodeNull
  | some as => head 4 as.length ++ as.flatMap element

def encodeInstruction (i : Instruction) : List UInt8 :=
  head 5 2 ++ encodeText "Opcode" ++ encodeInt i.tag.toNat ++ encodeText "Operand" ++
    encodeInt i.operand.toInt

def encode (s : Snapshot) : List UInt8 :=
  head 5 4 ++
    (encodeInt 1 ++ encodeArray (fun v => encodeInt v.toInt) s.stack) ++
    (encodeInt 2 ++ encodeArray encodeInstruction s.program) ++
    (encodeInt 3 ++ encodeInt s.pc) ++
    (encodeInt 4 ++ encodeBool s.halted)

/-- An array that may be absent. -/
def optional? {α : Type} (element : Item → Option α) : Item → Option (Option (List α)) :=
  Item.read? none fun item => (item.array? element).map some

def ofEntries? (entries : List (Key × Item)) : Option Snapshot :=
  match
    field? (Key.isNumber 1) none (optional? word?) entries,
    field? (Key.isNumber 2) none (optional? instruction?) entries,
    field? (Key.isNumber 3) 0 index? entries,
    field? (Key.isNumber 4) false (Item.read? false Item.bool?) entries with
  | some stack, some program, some pc, some halted => some { stack, program, pc, halted }
  | _, _, _, _ => none

def ofItem? : Item → Option Snapshot :=
  Item.read? {} fun
    | .map items =>
      match Item.entries? items with
      | none => none
      | some entries => ofEntries? entries
    | _ => none

def decode? (bytes : List UInt8) : Option Snapshot :=
  match Item.decode? bytes with
  | none => none
  | some item => ofItem? item

def unreadable : Failure := .plain "engine: unmarshal snapshot"

def decode (bytes : List UInt8) : Except Failure Snapshot :=
  match decode? bytes with
  | some s => .ok s
  | none => .error unreadable

/-- What is left in hand after reading the bytes: the snapshot, or a failure with the empty
snapshot. -/
def unpack (bytes : List UInt8) : Snapshot × Option Failure :=
  match decode bytes with
  | .ok s => (s, none)
  | .error f => ({}, some f)

end Snapshot

end StackMachine
