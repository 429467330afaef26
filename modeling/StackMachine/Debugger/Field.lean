import StackMachine.Debugger.Key
import StackMachine.Text.Blank
import StackMachine.Text.Numeral
import StackMachine.Text.Width

/-!
# Text fields

A text field holds a short line of text and a cursor. The text is kept in two parts, of which the
part before the cursor is reversed, so that edits happen at the heads of the parts. Of a text that
is too wide only a window is shown, which moves as little as it has to for the cursor to stay in it.
-/

namespace StackMachine.Debugger

structure Field where
  /-- The text before the cursor, last character first. -/
  before : List Char := []
  after : List Char := []
  /-- The number of characters before the window. -/
  first : Nat := 0
  /-- The number of characters before the end of the window. -/
  last : Nat := 0
  deriving DecidableEq, Repr

namespace Field

/-- A field holds at most this many characters. -/
def limit : Nat := 9

/-- The columns of the window, without the cursor at its end. -/
def width : Nat := 12

def value (f : Field) : List Char := f.before.reverse ++ f.after

/-- The number of characters before the cursor. -/
def cursor (f : Field) : Nat := f.before.length

/-! ### The window -/

/-- How many of the characters fit into a window after others that take `used` columns. The last of
them may take the column of the cursor. -/
def fitting (used : Nat) : List Char → Nat
  | [] => 0
  | c :: rest =>
    let used := used + scrolledColumns c
    if used ≤ width then fitting used rest + 1 else if used = width + 1 then 1 else 0

/-- How many of the characters, given last first, fit into a window in front of others that take
`used` columns. The first character of the text is never counted. -/
def fittingBack (used : Nat) : List Char → Nat
  | [] | [_] => 0
  | c :: rest =>
    if used < width && used + scrolledColumns c ≤ width then
      fittingBack (used + scrolledColumns c) rest + 1
    else 0

/-- Moves the window to where the cursor is. A text that is not too wide is shown as a whole. -/
def reveal (f : Field) : Field :=
  if columns f.value ≤ width then { f with first := 0, last := f.value.length }
  else if f.cursor < f.first then
    { f with first := f.cursor, last := f.cursor + fitting 0 f.after }
  else if min f.last f.value.length ≤ f.cursor then
    { f with first := f.cursor - fittingBack 0 f.before, last := f.cursor }
  else { f with last := min f.last f.value.length }

/-- Puts the cursor after the first `n` characters. -/
def moveTo (f : Field) (n : Nat) : Field :=
  { f with before := (f.value.take n).reverse, after := f.value.drop n }.reveal

/-! ### Characters -/

/-- What is left of text before it is put into a field: line breaks and tabs become spaces, and
other control characters and replacement characters are dropped. -/
def sanitize (cs : List Char) : List Char :=
  (cs.map fun c => if c = '\n' || c = '\r' || c = '\t' then ' ' else c).filter fun c =>
    let n := c.toNat
    !(n < 0x20 || (0x7F ≤ n && n ≤ 0x9F) || n = 0xFFFD)

/-- Inserts text at the cursor, as much as there is room for. -/
def insert (f : Field) (cs : List Char) : Field :=
  { f with before := ((sanitize cs).take (limit - f.value.length)).reverse ++ f.before }.reveal

def left (f : Field) : Field := f.moveTo (f.cursor - 1)

def right (f : Field) : Field := f.moveTo (f.cursor + 1)

def toStart (f : Field) : Field := f.moveTo 0

def toEnd (f : Field) : Field := f.moveTo f.value.length

def backspace (f : Field) : Field := { f with before := f.before.tail }.reveal

def delete (f : Field) : Field := { f with after := f.after.tail }.reveal

/-- Deletes all characters from the cursor on. -/
def deleteAfter (f : Field) : Field := { f with after := [] }.reveal

/-- Deletes all characters before the cursor. -/
def deleteBefore (f : Field) : Field := { f with before := [], first := 0 }.reveal

/-! ### Words -/

/-- The text after the blanks at its start and the word after them. -/
def dropFirstWord (cs : List Char) : List Char :=
  (cs.dropWhile isBlank).dropWhile fun c => !isBlank c

def wordLeft (f : Field) : Field := f.moveTo (dropFirstWord f.before).length

def wordRight (f : Field) : Field :=
  f.moveTo (f.value.length - (dropFirstWord f.after).length)

/-- Drops the characters of a word from a reversed text. The blank before the word is kept unless it
is the first character of all. -/
def dropWord : List Char → List Char
  | [] => []
  | [_] => []
  | c :: rest => if isBlank c then c :: rest else dropWord rest

/-- Drops blanks from a reversed text, but not its last character. -/
def dropBlanks : List Char → List Char
  | c :: d :: rest => if isBlank c then dropBlanks (d :: rest) else c :: d :: rest
  | cs => cs

/-- Deletes the word before the cursor, after the cursor has been at the blank before the word. -/
def deleteWordBefore (f : Field) : Field :=
  if f.before.isEmpty then f
  else
    let kept := dropWord (dropBlanks f.before)
    { f.moveTo (kept.length - 1) with before := kept, after := f.after }.reveal

/-- Deletes the character at the cursor and the word after it, after the cursor has been at the end
of the word. -/
def deleteWordAfter (f : Field) : Field :=
  if f.after.isEmpty then f
  else
    let kept := dropFirstWord f.after.tail
    { f.moveTo (f.value.length - kept.length) with before := f.before, after := kept }.reveal

/-- Whether a key asks for a character after the end of the text. To delete the word after the cursor
is to look at the character after the one at the cursor, which has to be there. -/
def overruns (f : Field) (k : Key) : Bool :=
  (k.name = "alt+delete" || k.name = "alt+d") && f.after.length = 1

/-- What a key does in a text field. Keys without a meaning insert the characters they stand for. -/
def press (f : Field) (k : Key) : Field :=
  match k.name with
  | "alt+backspace" | "ctrl+w" => f.deleteWordBefore
  | "backspace" | "ctrl+h" => f.backspace
  | "alt+left" | "ctrl+left" | "alt+b" => f.wordLeft
  | "left" | "ctrl+b" => f.left
  | "alt+right" | "ctrl+right" | "alt+f" => f.wordRight
  | "right" | "ctrl+f" => f.right
  | "home" | "ctrl+a" => f.toStart
  | "delete" | "ctrl+d" => f.delete
  | "end" | "ctrl+e" => f.toEnd
  | "ctrl+k" => f.deleteAfter
  | "ctrl+u" => f.deleteBefore
  | "alt+delete" | "alt+d" => if f.overruns k then f else f.deleteWordAfter
  | "ctrl+v" | "down" | "ctrl+n" | "up" | "ctrl+p" => f
  | _ => f.insert k.characters

/-! ### View -/

/-- Shown in front of the text. -/
def prompt : String := "run n: "

/-- Shown in place of an empty text. -/
def placeholder : String := "steps"

/-- The part of the text in the window. -/
def shown (f : Field) : List Char := (f.value.take f.last).drop f.first

/-- The blanks after the text in the window. A cursor at the end of the text takes one. -/
def blanks (f : Field) : Nat :=
  if columns f.shown ≤ width then width + 1 - columns f.shown
  else if f.cursor - f.first < f.shown.length then 0
  else 1

def view (f : Field) : String :=
  if f.value.isEmpty then prompt ++ Numeral.padRight (width + 1) placeholder
  else prompt ++ String.ofList (f.shown ++ List.replicate f.blanks ' ')

end Field

end StackMachine.Debugger
