import StackMachine.Text.Numeral
import StackMachine.Text.Printable

/-!
# Quoted texts

A quoted text stands between double quotes and shows every letter: printable characters as they
are, all others by an escape. Control characters and stray bytes are written with two hexadecimal
digits, other characters with four or eight.
-/

namespace StackMachine

def Letter.escaped : Letter → String
  | .stray b => "\\x" ++ Numeral.hexByte b
  | .char c =>
    if c = '"' || c = '\\' then String.ofList ['\\', c]
    else if isPrintable c then c.toString
    else
      match c.toNat with
      | 0x07 => "\\a"
      | 0x08 => "\\b"
      | 0x09 => "\\t"
      | 0x0A => "\\n"
      | 0x0B => "\\v"
      | 0x0C => "\\f"
      | 0x0D => "\\r"
      | n =>
        if n < 0x20 || n == 0x7F then "\\x" ++ Numeral.hex 2 n
        else if n < 0x10000 then "\\u" ++ Numeral.hex 4 n
        else "\\U" ++ Numeral.hex 8 n

def Text.quoted (t : Text) : String := "\"" ++ String.join (t.map Letter.escaped) ++ "\""

/-- A string between double quotes, with escapes for what is not printable. -/
def quote (s : String) : String := (Text.ofString s).quoted

end StackMachine
