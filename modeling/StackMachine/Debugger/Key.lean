/-!
# Keys

A key that was pressed has a name, which commands are recognised by, and the characters it stands
for in a text, if any. Several characters may arrive as one key; its name is then the whole text.
-/

namespace StackMachine.Debugger

structure Key where
  name : String
  characters : List Char := []
  deriving DecidableEq, Repr

namespace Key

/-- A name with the alt key held down. -/
def modified (alt : Bool) (name : String) : String := if alt then "alt+" ++ name else name

def typed (text : String) (alt : Bool) : Key := ⟨modified alt text, text.toList⟩

/-- Pasted text, which never is a command. -/
def pasted (text : String) : Key := ⟨"[" ++ text ++ "]", text.toList⟩

/-- A key with a name of its own. Of these only the space stands for a character. -/
def special (name : String) (alt : Bool) : Key :=
  if name = "space" then typed " " alt else ⟨modified alt name, []⟩

end Key

end StackMachine.Debugger
