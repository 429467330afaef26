import StackMachine.Text.Quoted

/-!
# Failures

A failure is a chain of causes. Its links are reports, which say in fields what went wrong and
where, and plain links, which only have a wording. `Failure.message` is the wording of a whole
chain; the functions that ask for the kind of a failure look for the first report in it.
-/

namespace StackMachine

/-- The activity during which a failure arose. -/
inductive Phase where
  | execute
  | encode
  | decode
  | assemble
  | load
  | save
  | config
  | custom (name : String)
  deriving DecidableEq, Repr

namespace Phase

def name : Phase → String
  | execute => "execute"
  | encode => "encode"
  | decode => "decode"
  | assemble => "assemble"
  | load => "load"
  | save => "save"
  | config => "config"
  | custom name => name

def all : List Phase := [execute, encode, decode, assemble, load, save, config]

/-- The phase of that name, a custom one if no other has it. -/
def ofName (s : String) : Phase := (all.find? (·.name = s)).getD (custom s)

end Phase

/-- What went wrong. `ok` is the kind of no failure at all, and `unknown` that of a failure without
a report. -/
inductive Kind where
  | ok
  | stackOverflow
  | stackUnderflow
  | illegalInstruction
  | illegalInstructionAccess
  | divisionByZero
  | unknownOperand
  | truncated
  | invalidMagic
  | unsupportedVersion
  | invalidOpcode
  | trailingData
  | invalidData
  | invalidInput
  | notFound
  | fileSystem
  | unknown
  | custom (name : String)
  deriving DecidableEq, Repr

namespace Kind

def name : Kind → String
  | ok => "ok"
  | stackOverflow => "stack_overflow"
  | stackUnderflow => "stack_underflow"
  | illegalInstruction => "illegal_instruction"
  | illegalInstructionAccess => "illegal_instruction_access"
  | divisionByZero => "division_by_zero"
  | unknownOperand => "unknown_operand"
  | truncated => "truncated"
  | invalidMagic => "invalid_magic"
  | unsupportedVersion => "unsupported_version"
  | invalidOpcode => "invalid_opcode"
  | trailingData => "trailing_data"
  | invalidData => "invalid_data"
  | invalidInput => "invalid_input"
  | notFound => "not_found"
  | fileSystem => "io"
  | unknown => "unknown"
  | custom name => name

def all : List Kind :=
  [ok, stackOverflow, stackUnderflow, illegalInstruction, illegalInstructionAccess, divisionByZero,
    unknownOperand, truncated, invalidMagic, unsupportedVersion, invalidOpcode, trailingData,
    invalidData, invalidInput, notFound, fileSystem, unknown]

/-- The kind of that name, a custom one if no other has it. -/
def ofName (s : String) : Kind := (all.find? (·.name = s)).getD (custom s)

/-- Whether executing a program can be what failed. -/
def isFault : Kind → Bool
  | stackOverflow | stackUnderflow | illegalInstruction | illegalInstructionAccess
  | divisionByZero | unknownOperand => true
  | _ => false

end Kind

/-- The value that a report objects to. -/
inductive Culprit where
  | number (n : Int)
  | text (t : Text)
  | bytes (bs : List UInt8)
  deriving DecidableEq, Repr

/-- One link of a failure that says in fields what went wrong. `pc` is an index into a program and
`position` an offset into encoded bytes. -/
structure Report where
  phase : Phase
  kind : Kind
  pc : Option Int := none
  position : Option Int := none
  opcode : String := ""
  detail : String := ""
  culprit : Option Culprit := none
  deriving DecidableEq, Repr

namespace Report

/-- Phase and kind, then every field that is present; the culprit is not shown. -/
def headline (r : Report) : String :=
  "[" ++ r.phase.name ++ "] " ++ r.kind.name ++
    (match r.pc with
      | some n => " at pc " ++ toString n
      | none => "") ++
    (match r.position with
      | some n => " at byte " ++ toString n
      | none => "") ++
    (if r.opcode = "" then "" else " (" ++ r.opcode ++ ")") ++
    (if r.detail = "" then "" else ": " ++ r.detail)

/-- Whether a report is of this kind and, if a phase is given, of this phase. -/
def isOf (r : Report) (phase : Option Phase) (kind : Kind) : Bool :=
  (match phase with
    | some p => r.phase = p
    | none => true) && r.kind = kind

end Report

/-- A chain of causes, outermost link first. -/
inductive Failure where
  /-- A last link with its own wording. -/
  | plain (text : String)
  /-- A last link: there was nothing left to read. -/
  | endOfInput
  /-- Says in which context the cause arose. -/
  | context (text : String) (cause : Failure)
  /-- A last link that is a report. -/
  | report (r : Report)
  /-- A report about another failure. -/
  | caused (r : Report) (cause : Failure)
  deriving DecidableEq, Repr

namespace Failure

def message : Failure → String
  | plain text => text
  | endOfInput => "EOF"
  | context text cause => text ++ ": " ++ cause.message
  | report r => r.headline
  | caused r cause => r.headline ++ " (caused by: " ++ cause.message ++ ")"

/-- The next link of the chain. -/
def cause? : Failure → Option Failure
  | context _ cause | caused _ cause => some cause
  | plain _ | endOfInput | report _ => none

/-- The first report of the chain. -/
def report? : Failure → Option Report
  | plain _ | endOfInput => none
  | context _ cause => cause.report?
  | report r | caused r _ => some r

/-- The kind of the first report, `unknown` if there is none. -/
def kind (f : Failure) : Kind :=
  match f.report? with
  | some r => r.kind
  | none => .unknown

/-- Whether some report of the chain is of this kind and phase. -/
def isOf (f : Failure) (phase : Option Phase) (kind : Kind) : Bool :=
  match f with
  | plain _ | endOfInput => false
  | context _ cause => cause.isOf phase kind
  | report r => r.isOf phase kind
  | caused r cause => r.isOf phase kind || cause.isOf phase kind

/-- Whether the chain ends because nothing was left to read. -/
def isEndOfInput : Failure → Bool
  | plain _ | report _ => false
  | endOfInput => true
  | context _ cause | caused _ cause => cause.isEndOfInput

/-- Changes the detail of the first report. -/
def mapDetail (g : String → String) : Failure → Failure
  | plain text => plain text
  | endOfInput => endOfInput
  | context text cause => context text (cause.mapDetail g)
  | report r => report { r with detail := g r.detail }
  | caused r cause => caused { r with detail := g r.detail } cause

/-- The kind of an outcome: `ok` if there is no failure. -/
def kindOf : Option Failure → Kind
  | none => .ok
  | some f => f.kind

/-- A report, with its cause if there is one. -/
def ofReport (r : Report) : Option Failure → Failure
  | none => report r
  | some cause => caused r cause

/-! ### Common reports -/

/-- The instruction at `pc` cannot be executed. -/
def fault (kind : Kind) (pc : Int) (opcode detail : String) : Failure :=
  report { phase := .execute, kind, pc := some pc, opcode, detail }

def underflow (pc : Int) (opcode : String) (need held : Int) : Failure :=
  fault .stackUnderflow pc opcode
    ("need " ++ toString need ++ " operand(s), have " ++ toString held)

def overflow (pc : Int) (opcode : String) (limit : Int) : Failure :=
  fault .stackOverflow pc opcode ("stack limit " ++ toString limit ++ " reached")

/-- Encoded bytes end inside the named field. -/
def truncated (position : Int) (field : String) : Failure :=
  report { phase := .decode, kind := .truncated, position := some position,
           detail := "unexpected end of input reading " ++ field }

/-- An encoded instruction has a tag that no opcode has. -/
def invalidOpcode (position : Int) (tag : UInt8) : Failure :=
  report { phase := .decode, kind := .invalidOpcode, position := some position,
           culprit := some (.number tag.toNat),
           detail := "opcode tag 0x" ++ Numeral.hexByte tag ++ " outside the instruction set" }

def notFound (phase : Phase) (what name : String) : Failure :=
  report { phase, kind := .notFound, detail := what ++ " " ++ quote name ++ " not found" }

def invalidInput (phase : Phase) (detail : String) : Failure :=
  report { phase, kind := .invalidInput, detail }

def fileSystem (phase : Phase) (detail : String) (cause : Option Failure) : Failure :=
  ofReport { phase, kind := .fileSystem, detail } cause

/-- Gives a failure a report of its own. -/
def wrap (phase : Phase) (kind : Kind) (detail : String) (cause : Option Failure) : Failure :=
  ofReport { phase, kind, detail } cause

end Failure

end StackMachine
