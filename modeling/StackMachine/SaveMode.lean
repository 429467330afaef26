import StackMachine.Failure
import StackMachine.Text.Blank
import StackMachine.Text.Case

/-!
# Save modes

A save mode says what saving a program does with what the file already holds.
-/

namespace StackMachine

/-- Modes have codes, of which all but `0` and `1` can only be refused. -/
inductive SaveMode where
  /-- Adds the program after the programs that are there. -/
  | append
  /-- Replaces what is there. -/
  | truncate
  | other (code : Int)
  deriving DecidableEq, Repr

namespace SaveMode

def ofCode (n : Int) : SaveMode :=
  if n = 0 then append else if n = 1 then truncate else other n

def code : SaveMode → Int
  | append => 0
  | truncate => 1
  | other n => n

def name : SaveMode → String
  | append => "append"
  | truncate => "truncate"
  | other n => "SaveMode(" ++ toString n ++ ")"

/-- The mode of a name in any case, with blanks around it; no name means `append`. -/
def ofName? (t : Text) : Option SaveMode :=
  let bare := t.trim.lower
  if bare = [] || bare = Text.ofString "append" then some append
  else if bare = Text.ofString "truncate" then some truncate
  else none

def unknownName (t : Text) : Failure :=
  .invalidInput .config ("unknown save mode " ++ t.quoted)

def unknownCode (code : Int) : Failure :=
  .invalidInput .save ("unknown save mode " ++ toString code)

end SaveMode

end StackMachine
