import StackMachine.Failure
import StackMachine.Program

/-!
# Lines of assembly

A line of assembly is a mnemonic and, for some opcodes, a decimal operand. Lines are read in one of
two ways. The lenient way makes an instruction of every line: an unknown mnemonic halts, and an
operand counts only if it is the second of exactly two tokens. The strict way refuses unknown
mnemonics, missing operands and further tokens. Both refuse an operand that is no 32-bit number.
-/

namespace StackMachine

namespace Opcode

def mnemonic : Opcode → String
  | push => "psh"
  | duplicate => "dplc"
  | add => "sum"
  | subtract => "sub"
  | multiply => "mul"
  | divide => "div"
  | jump => "jmp"
  | jumpIfTrue => "jif"
  | equal => "eq"
  | halt => "end"

def ofMnemonic? (t : Text) : Option Opcode := all.find? fun op => Text.ofString op.mnemonic = t

end Opcode

namespace Assembly

inductive Objection where
  | unknownMnemonic (token : Text)
  | missingOperand (op : Opcode)
  | badOperand (token : Text) (fault : Numeral.Fault)
  | tooManyTokens (count : Nat)
  | invalidLabel (name : Text)
  /-- The label is declared on an earlier line too. -/
  | repeatedLabel (name : Text)
  /-- No line declares the label. -/
  | missingLabel (name : Text)
  deriving DecidableEq, Repr

namespace Objection

def kind : Objection → Kind
  | unknownMnemonic _ => .unknownOperand
  | missingLabel _ => .notFound
  | _ => .invalidInput

def detail : Objection → String
  | unknownMnemonic token => "unknown mnemonic " ++ token.quoted
  | missingOperand op => op.mnemonic ++ " requires an operand"
  | badOperand token _ => "operand " ++ token.quoted ++ " is not a 32-bit integer"
  | tooManyTokens count =>
    "expected mnemonic and at most one operand, got " ++ toString count ++ " tokens"
  | invalidLabel name => "invalid label name " ++ name.quoted
  | repeatedLabel name => "label " ++ name.quoted ++ " declared twice"
  | missingLabel name => "label " ++ name.quoted ++ " not found"

def culprit? : Objection → Option Culprit
  | unknownMnemonic token => some (.text token)
  | badOperand token _ => some (.text token)
  | _ => none

def report (o : Objection) : Report :=
  { phase := .assemble, kind := o.kind, detail := o.detail, culprit := o.culprit? }

/-- A bad operand has the fault of the numeral as its cause. -/
def failure (o : Objection) : Failure :=
  match o with
  | badOperand token fault =>
    .caused o.report
      (.plain ("strconv.ParseInt: parsing " ++ token.quoted ++ ": " ++ fault.reason))
  | _ => .report o.report

end Objection

def operand (token : Text) : Except Objection Int32 :=
  match Numeral.read 32 token with
  | .ok n => .ok (.ofInt n)
  | .error e => .error (.badOperand token e)

def withOperand (op : Opcode) (token : Text) : Except Objection Instruction :=
  match operand token with
  | .ok v => .ok (.of op v)
  | .error e => .error e

def lenient : List Text → Except Objection Instruction
  | [] => .ok .halt
  | [name, token] => withOperand ((Opcode.ofMnemonic? name).getD .halt) token
  | name :: _ => .ok (.bare ((Opcode.ofMnemonic? name).getD .halt))

def strict : List Text → Except Objection Instruction
  | [] => .ok .halt
  | name :: operands =>
    match Opcode.ofMnemonic? name with
    | none => .error (.unknownMnemonic name)
    | some op =>
      match operands with
      | [] => if op.takesOperand then .error (.missingOperand op) else .ok (.bare op)
      | [token] => withOperand op token
      | _ => .error (.tooManyTokens (operands.length + 1))

def instructionOfTokens (isStrict : Bool) (tokens : List Text) : Except Objection Instruction :=
  if isStrict then strict tokens else lenient tokens

/-- The instruction of a line whose tokens are separated by single spaces. An empty line halts. -/
def instructionOfLine (isStrict : Bool) (line : Text) : Except Objection Instruction :=
  if line = [] then .ok .halt else instructionOfTokens isStrict (line.split ' ')

end Assembly

namespace Instruction

/-- The line of an instruction. A tag outside the set is written as the mnemonic that halts; an
operand that means nothing is written unless it is zero. -/
def assembly (i : Instruction) : List Char :=
  let op := Opcode.ofTag i.tag
  op.mnemonic.toList ++
    if op.takesOperand || i.operand ≠ 0 then ' ' :: Numeral.decimal i.operand.toInt else []

end Instruction

def Program.assembly (p : Program) : List Char := p.flatMap fun i => i.assembly ++ ['\n']

end StackMachine
