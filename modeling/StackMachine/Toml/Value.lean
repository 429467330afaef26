import StackMachine.Text.Numeral

/-!
# TOML statements

A TOML file is a sequence of statements: entries, which give a key a value, and headers, which say
to which table the entries after them belong. Keys have one or more parts.
-/

namespace StackMachine.Toml

/-- The parts of a key, outermost table first. -/
abbrev Key := List String

mutual

/-- A value. Numbers with a fraction or an exponent, dates and times are kept as they are
written. -/
inductive Value where
  | string (s : String)
  | integer (n : Int)
  | boolean (b : Bool)
  | float (literal : String)
  | time (literal : String)
  | array (items : List Value)
  | table (entries : List Entry)

inductive Entry where
  | assign (key : Key) (value : Value)

end

def Entry.key : Entry → Key
  | assign key _ => key

def Value.isArray : Value → Bool
  | array _ => true
  | _ => false

instance : Inhabited Value := ⟨.boolean false⟩

inductive Statement where
  /-- Begins a table, a further one of an array of tables if `isElement`. -/
  | header (key : Key) (isElement : Bool)
  | entry (e : Entry)
  deriving Inhabited

/-- The letters of parts that need no quotes. -/
def isBare (c : Char) : Bool := c.isAlphanum || c = '_' || c = '-'

/-- A character between the quotes of a part. -/
def escapedChar (c : Char) : String :=
  match c.toNat with
  | 0x08 => "\\b"
  | 0x09 => "\\t"
  | 0x0A => "\\n"
  | 0x0C => "\\f"
  | 0x0D => "\\r"
  | 0x22 => "\\\""
  | 0x5C => "\\\\"
  | n => if n < 0x20 || n = 0x7F then "\\u" ++ Numeral.hex 4 n else c.toString

def renderPart (part : String) : String :=
  if part ≠ "" && part.toList.all isBare then part
  else "\"" ++ String.join (part.toList.map escapedChar) ++ "\""

/-- The parts joined by dots, with quotes around those that need them. -/
def renderKey (key : Key) : String := ".".intercalate (key.map renderPart)

end StackMachine.Toml
