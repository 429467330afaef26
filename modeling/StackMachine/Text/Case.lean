import StackMachine.Text.Letter

/-!
# Letter case

Names are compared without regard to case in two ways: by their lower case, and by case folding,
under which all letters with a common upper or lower case are the same. Both are stated here for
names of ASCII letters. A few other characters take part: the lower case of `İ` is `i`, that of the
Kelvin sign is `k`, and the long `ſ` folds to `s`.
-/

namespace StackMachine

/-- The lower case of a character, exact wherever that is an ASCII letter. -/
def lowerCase (c : Char) : Char :=
  match c.toNat with
  | 0x130 => 'i'
  | 0x212A => 'k'
  | _ => c.toLower

/-- A representative of the characters that fold to the same ASCII letter. -/
def foldCase (c : Char) : Char :=
  match c.toNat with
  | 0x17F => 's'
  | 0x212A => 'k'
  | _ => c.toLower

/-- Whether a name of ASCII letters equals another name up to case folding. -/
def sameName (name other : String) : Bool :=
  name.toList.map foldCase == other.toList.map foldCase

def Text.lower (t : Text) : Text :=
  t.map fun
    | .char c => .char (lowerCase c)
    | .stray b => .stray b

end StackMachine
