import StackMachine.Debugger

/-!
# The screen of the debugger

The screen shows the program and the stack in two boxes side by side, and below them where the
machine stands, the last message and the keys that can be pressed.
-/

namespace StackMachine.Debugger

/-! ### Boxes -/

/-- The number of characters of the longest line. -/
def widest (lines : List String) : Nat := (lines.map String.length).foldl max 0

def bar (n : Nat) (c : Char) : String := String.ofList (List.replicate n c)

/-- Lines inside a border, all of the same length. -/
def box (lines : List String) : List String :=
  let width := widest lines
  ["╭" ++ bar (width + 2) '─' ++ "╮"] ++
    lines.map (fun line => "│ " ++ Numeral.padRight width line ++ " │") ++
    ["╰" ++ bar (width + 2) '─' ++ "╯"]

/-- Adds blank lines below a box, up to a height. -/
def fillTo (height : Nat) (lines : List String) : List String :=
  lines ++ List.replicate (height - lines.length) (bar (widest lines) ' ')

/-- Two boxes with one column between them. -/
def sideBySide (a b : List String) : List String :=
  let height := max a.length b.length
  (fillTo height a).zipWith (fun x y => x ++ " " ++ y) (fillTo height b)

/-! ### Parts of the screen -/

/-- The line of an instruction, which shows its operand if that means anything or the instruction is
the next one. -/
def instructionLine (next : Bool) (i : Nat) (instruction : Instruction) : String :=
  (if next then "> " else "  ") ++ Numeral.padLeft ' ' 4 (toString i) ++ "  " ++
    Numeral.padRight 10 instruction.name ++
    if next || instruction.takesOperand then " " ++ toString instruction.operand.toInt else ""

def programLines (m : Machine) : List String :=
  "Instructions" ::
    if m.instructions.isEmpty then ["  empty"]
    else
      m.instructions.mapIdx fun i instruction =>
        instructionLine (m.pc = i && !m.halted) i instruction

/-- The stack with its top first. -/
def stackLines (m : Machine) : List String :=
  "Stack" ::
    if m.stack.isEmpty then ["  empty"]
    else
      (m.values.mapIdx fun i v =>
        Numeral.padLeft ' ' 4 (toString i) ++ ": " ++ toString v.toInt).reverse

def conditionText (d : Debugger) : String :=
  match d.fault with
  | some f => f.kind.name ++ ": " ++ f.failure.message
  | none => if d.machine.halted then "halted" else "running"

/-- The last lines: the text field or the keys that can be pressed. -/
def footer (d : Debugger) : List String :=
  if d.entering then [d.field.view, "enter run • esc cancel"]
  else ["s/space step • n run n steps • r run • x reset • q quit"]

def view (d : Debugger) : List String :=
  [" Stack VM Debugger  " ++ d.name, ""] ++
    sideBySide (box (programLines d.machine)) (box (stackLines d.machine)) ++
    ["", "pc " ++ toString d.machine.pc ++ " • steps " ++ toString d.steps ++ " • " ++
      d.conditionText] ++
    (if d.status = "" then [] else [d.status]) ++ [""] ++ d.footer

end StackMachine.Debugger
