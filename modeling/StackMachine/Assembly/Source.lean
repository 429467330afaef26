import StackMachine.Assembly.Line
import StackMachine.Text.Blank

/-!
# Assembly sources

A source is a text with one instruction on each line. Sources with labels may also hold blank lines,
comments and declarations of labels, and their jumps may name a label instead of an index. Such a
source is read once, from top to bottom, into a draft in which jumps to labels are still open; the
draft is completed when all labels are known.
-/

namespace StackMachine.Assembly

structure Options where
  strict : Bool := false
  labels : Bool := false
  deriving DecidableEq, Repr

/-- A line that keeps a source from being a program; lines are counted from one. -/
structure AssembleError where
  line : Nat
  objection : Objection
  deriving DecidableEq, Repr

def AssembleError.failure (e : AssembleError) : Failure :=
  e.objection.failure.mapDetail fun detail => "line " ++ toString e.line ++ ": " ++ detail

def dropFinalEmpty : List Text → List Text
  | [] => []
  | [piece] => if piece = [] then [] else [piece]
  | piece :: pieces => piece :: dropFinalEmpty pieces

/-- Drops one carriage return from the end of a line. -/
def dropReturn (line : Text) : Text :=
  if line.getLast? = some (.char '\r') then line.dropLast else line

/-- The lines of a source. A newline ends a line, so none begins after the last newline. -/
def lines (source : Text) : List Text := (dropFinalEmpty (source.split '\n')).map dropReturn

/-- The instructions of lines of which the first has the number `n`. -/
def programOfLines (isStrict : Bool) (n : Nat) : List Text → Except AssembleError Program
  | [] => .ok []
  | line :: rest =>
    match instructionOfLine isStrict line with
    | .error e => .error ⟨n, e⟩
    | .ok i =>
      match programOfLines isStrict (n + 1) rest with
      | .error e => .error e
      | .ok p => .ok (i :: p)

/-! ### Labels -/

def isLabelStart (c : Char) : Bool := c = '_' || ('a' ≤ c && c ≤ 'z') || ('A' ≤ c && c ≤ 'Z')

def isLabelLetter : Letter → Bool
  | .char c => isLabelStart c || ('0' ≤ c && c ≤ '9')
  | .stray _ => false

/-- A label is a letter or an underscore, followed by letters, digits and underscores. -/
def isLabel : Text → Bool
  | .char c :: rest => isLabelStart c && rest.all isLabelLetter
  | _ => false

/-- What a line of a source with labels is. -/
inductive Statement where
  /-- A blank line or a comment. -/
  | nothing
  | declaration (name : Text)
  /-- A jump to a label. -/
  | jump (op : Opcode) (label : Text)
  | instruction (tokens : List Text)
  deriving DecidableEq, Repr

def Statement.ofTokens (tokens : List Text) : Statement :=
  match tokens with
  | [name, label] =>
    match Opcode.ofMnemonic? name with
    | some op =>
      if (op = .jump || op = .jumpIfTrue) && isLabel label then .jump op label
      else .instruction tokens
    | none => .instruction tokens
  | _ => .instruction tokens

def Statement.ofLine (line : Text) : Statement :=
  match line.trim with
  | [] => .nothing
  | .char '#' :: _ => .nothing
  | .char ':' :: name => .declaration name
  | trimmed => .ofTokens trimmed.words

inductive Slot where
  | filled (i : Instruction)
  /-- A jump to a label, with the number of its line. -/
  | waiting (op : Opcode) (label : Text) (line : Nat)
  deriving DecidableEq, Repr

/-- What has been read of a source with labels: the slots, last first, their number, and for each
label declared so far the number of slots before it. -/
structure Draft where
  slots : List Slot := []
  size : Nat := 0
  labels : List (Text × Nat) := []
  deriving DecidableEq, Repr

namespace Draft

def push (d : Draft) (s : Slot) : Draft := { d with slots := s :: d.slots, size := d.size + 1 }

def declare (d : Draft) (name : Text) : Except Objection Draft :=
  if !isLabel name then .error (.invalidLabel name)
  else if (d.labels.lookup name).isSome then .error (.repeatedLabel name)
  else .ok { d with labels := (name, d.size) :: d.labels }

/-- Adds the line with the number `n`. -/
def add (isStrict : Bool) (n : Nat) (d : Draft) (line : Text) : Except Objection Draft :=
  match Statement.ofLine line with
  | .nothing => .ok d
  | .declaration name => d.declare name
  | .jump op label => .ok (d.push (.waiting op label n))
  | .instruction tokens =>
    match instructionOfTokens isStrict tokens with
    | .ok i => .ok (d.push (.filled i))
    | .error e => .error e

/-- Adds lines of which the first has the number `n`. -/
def addAll (isStrict : Bool) (n : Nat) (d : Draft) : List Text → Except AssembleError Draft
  | [] => .ok d
  | line :: rest =>
    match d.add isStrict n line with
    | .error e => .error ⟨n, e⟩
    | .ok d => d.addAll isStrict (n + 1) rest

end Draft

/-- The instruction of a slot, once all labels are known. -/
def Slot.instruction (labels : List (Text × Nat)) : Slot → Except AssembleError Instruction
  | filled i => .ok i
  | waiting op label line =>
    match labels.lookup label with
    | some target => .ok (.of op (.ofNat target))
    | none => .error ⟨line, .missingLabel label⟩

/-- The instructions of slots in the order of the program. -/
def fillSlots (labels : List (Text × Nat)) : List Slot → Except AssembleError Program
  | [] => .ok []
  | s :: rest =>
    match s.instruction labels with
    | .error e => .error e
    | .ok i =>
      match fillSlots labels rest with
      | .error e => .error e
      | .ok p => .ok (i :: p)

def Draft.program (d : Draft) : Except AssembleError Program :=
  fillSlots d.labels d.slots.reverse

def assemble (o : Options) (source : Text) : Except AssembleError Program :=
  if o.labels then
    match Draft.addAll o.strict 1 {} (lines source) with
    | .error e => .error e
    | .ok d => d.program
  else programOfLines o.strict 1 (lines source)

end StackMachine.Assembly
