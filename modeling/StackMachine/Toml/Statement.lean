import StackMachine.Text.Letter
import StackMachine.Toml.Quoted
import StackMachine.Toml.Time
import StackMachine.Toml.Value

/-!
# Reading TOML

A file is read from its first character to its last into the statements that it holds. All functions
here return what they read together with the text after it. Arrays and inline tables may hold each
other; the fuel that bounds their depth, and the number of their parts, is the length of the text.
-/

namespace StackMachine.Toml

def skipSpace (cs : List Char) : List Char := cs.dropWhile isSpace

/-- Text after the current line, of which the newline is left. -/
def skipComment (cs : List Char) : List Char := cs.dropWhile fun c => !isNewline c

/-- Text after white space and comments, if no more than `fuel` comments come first. -/
def skipLines : Nat → List Char → List Char
  | 0, cs => cs
  | fuel + 1, cs =>
    match cs.dropWhile isWhite with
    | '#' :: rest => skipLines fuel (skipComment rest)
    | rest => rest

/-! ### Keys -/

def readPart (cs : List Char) : Option (String × List Char) :=
  match readShortString cs with
  | some (s, rest) => some (String.ofList s, rest)
  | none =>
    let name := cs.takeWhile isBare
    if name.isEmpty then none else some (String.ofList name, cs.drop name.length)

/-- A key of at most `fuel` parts, with the blanks around it. -/
def readKey : Nat → List Char → Option (Key × List Char)
  | 0, _ => none
  | fuel + 1, cs =>
    match readPart (skipSpace cs) with
    | none => none
    | some (part, rest) =>
      match skipSpace rest with
      | '.' :: rest => (readKey fuel rest).map fun (key, rest) => (part :: key, rest)
      | rest => some ([part], rest)

/-! ### Values -/

/-- Characters of numbers, dates, times and names of values. -/
def isWordChar (c : Char) : Bool :=
  c.isAlphanum || c = '_' || c = '+' || c = '-' || c = '.' || c = ':'

/-- A run of word characters. A space after a date belongs to it if a time follows. -/
def readWord (cs : List Char) : List Char × List Char :=
  let word := cs.takeWhile isWordChar
  match afterDate? word, cs.drop word.length with
  | some [], ' ' :: c :: rest =>
    if c.isDigit then
      let time := (c :: rest).takeWhile isWordChar
      (word ++ ' ' :: time, (c :: rest).drop time.length)
    else (word, ' ' :: c :: rest)
  | _, rest => (word, rest)

def Value.ofWord? (word : List Char) : Option Value :=
  if word = ['t', 'r', 'u', 'e'] then some (.boolean true)
  else if word = ['f', 'a', 'l', 's', 'e'] then some (.boolean false)
  else
    match integer? word with
    | some n => some (.integer n)
    | none =>
      if isFloat word then some (.float (String.ofList word))
      else if isTime word then some (.time (String.ofList word))
      else none

/-- A value that holds no others. -/
def readScalar (cs : List Char) : Option (Value × List Char) :=
  match cs with
  | [] => none
  | c :: _ =>
    if c = '"' || c = apostrophe then
      (readString cs).map fun (s, rest) => (.string (String.ofList s), rest)
    else
      match readWord cs with
      | (word, rest) => (Value.ofWord? word).map fun v => (v, rest)

mutual

def readValue : Nat → List Char → Option (Value × List Char)
  | 0, _ => none
  | fuel + 1, cs =>
    match cs with
    | '[' :: rest => (readItems fuel rest).map fun (items, rest) => (.array items, rest)
    | '\x7b' :: rest => (readEntries fuel rest).map fun (entries, rest) => (.table entries, rest)
    | _ => readScalar cs

/-- The items of an array up to its closing bracket. -/
def readItems : Nat → List Char → Option (List Value × List Char)
  | 0, _ => none
  | fuel + 1, cs =>
    match skipLines cs.length cs with
    | ']' :: rest => some ([], rest)
    | cs =>
      match readValue fuel cs with
      | none => none
      | some (item, rest) =>
        match skipLines rest.length rest with
        | ']' :: rest => some ([item], rest)
        | ',' :: rest => (readItems fuel rest).map fun (items, rest) => (item :: items, rest)
        | _ => none

/-- The entries of an inline table up to its closing brace. -/
def readEntries : Nat → List Char → Option (List Entry × List Char)
  | 0, _ => none
  | fuel + 1, cs =>
    match skipLines cs.length cs with
    | '\x7d' :: rest => some ([], rest)
    | cs =>
      match readEntry fuel cs with
      | none => none
      | some (entry, rest) =>
        match skipLines rest.length rest with
        | '\x7d' :: rest => some ([entry], rest)
        | ',' :: rest => (readEntries fuel rest).map fun (entries, rest) => (entry :: entries, rest)
        | _ => none

def readEntry : Nat → List Char → Option (Entry × List Char)
  | 0, _ => none
  | fuel + 1, cs =>
    match readKey cs.length cs with
    | some (key, '=' :: rest) =>
      (readValue fuel (skipSpace rest)).map fun (value, rest) => (.assign key value, rest)
    | _ => none

end

/-! ### Statements -/

def readStatement (cs : List Char) : Option (Statement × List Char) :=
  match cs with
  | '[' :: '[' :: rest =>
    match readKey rest.length rest with
    | some (key, ']' :: ']' :: rest) => some (.header key true, rest)
    | _ => none
  | '[' :: rest =>
    match readKey rest.length rest with
    | some (key, ']' :: rest) => some (.header key false, rest)
    | _ => none
  | _ => (readEntry (2 * cs.length + 2) cs).map fun (entry, rest) => (.entry entry, rest)

/-- Text after the end of a statement. Nothing but a comment may follow it on its line. -/
def endStatement? (cs : List Char) : Option (List Char) :=
  match skipSpace cs with
  | [] => some []
  | c :: rest =>
    if c = '#' then some (skipComment rest) else if isNewline c then some rest else none

/-- All statements of a text that holds fewer than `fuel`. -/
def readStatements : Nat → List Char → Option (List Statement)
  | 0, _ => none
  | fuel + 1, cs =>
    match skipLines cs.length cs with
    | [] => some []
    | cs =>
      match readStatement cs with
      | none => none
      | some (s, rest) =>
        match endStatement? rest with
        | none => none
        | some rest => (readStatements fuel rest).map (s :: ·)

/-! ### Files -/

/-- Drops the mark of the byte order. -/
def dropMark : List UInt8 → List UInt8
  | 0xFF :: 0xFE :: rest => rest
  | 0xFE :: 0xFF :: rest => rest
  | 0xEF :: 0xBB :: 0xBF :: rest => rest
  | bytes => bytes

/-- Whether all characters may occur: no control characters but tabs and newlines, and a carriage
return only before a newline. -/
def isAllowed : List Char → Bool
  | [] => true
  | '\r' :: '\n' :: rest => isAllowed rest
  | c :: rest => (c = '\t' || c = '\n' || (0x20 ≤ c.toNat && c.toNat ≠ 0x7F)) && isAllowed rest

/-- The statements of a file, if it is well-formed. -/
def parse? (bytes : List UInt8) : Option (List Statement) :=
  match (Text.ofBytes (dropMark bytes)).mapM Letter.char? with
  | none => none
  | some cs => if isAllowed cs then readStatements (cs.length + 1) cs else none

end StackMachine.Toml
