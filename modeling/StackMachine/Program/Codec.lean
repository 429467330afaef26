import StackMachine.Bytes.Reader
import StackMachine.Bytes.Writer
import StackMachine.Program

/-!
# Encoded programs

An encoded program is the four bytes `SVMB`, a format version in two bytes, the number of
instructions as a variable-length number, and for each instruction its tag in one byte and its
operand in four. Encodings are self-delimiting, so a file may hold several of them in a row.
-/

namespace StackMachine.Program

/-- The signature that every encoded program starts with, "SVMB". -/
def magic : List UInt8 := [0x53, 0x56, 0x4D, 0x42]

/-- The format version that is written and understood. -/
def version : UInt16 := 1

def instructionSize : Nat := 5

/-- A program that cannot be encoded: the instruction at `pc` has a tag outside the set. -/
structure EncodeError where
  pc : Nat
  tag : UInt8
  deriving DecidableEq, Repr

def EncodeError.failure (e : EncodeError) : Failure :=
  .report { phase := .encode, kind := .invalidOpcode, pc := some e.pc,
            culprit := some (.number e.tag.toNat), detail := "cannot encode " ++ tagName e.tag }

/-- The signature, the version and the number of instructions modulo `2 ^ 32`. -/
def header (count : Nat) : List UInt8 :=
  magic ++ Bytes.ofU16 version ++ Bytes.ofU32 (.ofNat count)

def instructionBytes (i : Instruction) : List UInt8 := i.tag :: Bytes.ofS32 i.operand

/-- The first instruction whose tag is outside the set, if the first of all has the index `pc`. -/
def firstUnencodable (pc : Nat) : Program → Option EncodeError
  | [] => none
  | i :: rest =>
    match i.opcode? with
    | none => some ⟨pc, i.tag⟩
    | some _ => firstUnencodable (pc + 1) rest

/-- The bytes of a program whose tags are all in the set. -/
def encode (p : Program) : Except EncodeError (List UInt8) :=
  match firstUnencodable 0 p with
  | some e => .error e
  | none => .ok (header p.length ++ p.flatMap instructionBytes)

/-- The parts of an encoded program, in order. -/
inductive Field where
  | magic
  | version
  | count
  | opcode
  | operand
  deriving DecidableEq, Repr

def Field.name : Field → String
  | magic => "magic"
  | version => "version"
  | count => "count"
  | opcode => "opcode"
  | operand => "operand"

inductive DecodeError.Cause where
  /-- A field could not be read. -/
  | unreadable (field : Field) (e : ReadError)
  | wrongMagic (found : List UInt8)
  | wrongVersion (found : UInt16)
  /-- The bytes left cannot hold the announced number of instructions. -/
  | missing (count left : Nat)
  | invalidOpcode (tag : UInt8)
  /-- There are bytes after the program. -/
  | trailing (count : Nat)
  deriving DecidableEq, Repr

/-- What keeps bytes from being a program, and the offset at which that showed. -/
structure DecodeError where
  position : Nat
  cause : DecodeError.Cause
  deriving DecidableEq, Repr

namespace DecodeError

def kind (e : DecodeError) : Kind :=
  match e.cause with
  | .unreadable _ e => if e.isShort then .truncated else .invalidData
  | .wrongMagic _ => .invalidMagic
  | .wrongVersion _ => .unsupportedVersion
  | .missing _ _ => .truncated
  | .invalidOpcode _ => .invalidOpcode
  | .trailing _ => .trailingData

def detail (e : DecodeError) : String :=
  match e.cause with
  | .unreadable field e =>
    if e.isShort then "unexpected end of input reading " ++ field.name
    else "malformed " ++ field.name
  | .wrongMagic found =>
    "got " ++ (Text.ofBytes found).quoted ++ ", want " ++ (Text.ofBytes magic).quoted
  | .wrongVersion found =>
    "version " ++ toString found.toNat ++ ", supported " ++ toString version.toNat
  | .missing count left =>
    "count " ++ toString count ++ " needs " ++ toString (count * instructionSize) ++
      " byte(s), " ++ toString left ++ " left"
  | .invalidOpcode tag => "opcode tag 0x" ++ Numeral.hexByte tag ++ " outside the instruction set"
  | .trailing count => toString count ++ " byte(s) after program"

def culprit? (e : DecodeError) : Option Culprit :=
  match e.cause with
  | .wrongMagic found => some (.bytes found)
  | .wrongVersion found => some (.number found.toNat)
  | .invalidOpcode tag => some (.number tag.toNat)
  | _ => none

def report (e : DecodeError) : Report :=
  { phase := .decode, kind := e.kind, position := some e.position, detail := e.detail,
    culprit := e.culprit? }

/-- An unreadable field has the error of the reader as its cause. -/
def failure (e : DecodeError) : Failure :=
  match e.cause with
  | .unreadable field cause => .caused e.report (cause.located field.name e.position)
  | _ => .report e.report

end DecodeError

/-- The error of a read that failed, at the position it reached. -/
def unreadable (field : Field) (e : ReadError) (r : Reader) : DecodeError :=
  ⟨r.position, .unreadable field e⟩

def readInstructions : Nat → Reader → Except DecodeError (Program × Reader)
  | 0, r => .ok ([], r)
  | n + 1, start =>
    match start.byte with
    | (.error e, r) => .error (unreadable .opcode e r)
    | (.ok tag, r) =>
      match Opcode.ofTag? tag with
      | none => .error ⟨start.position, .invalidOpcode tag⟩
      | some _ =>
        match r.s32 with
        | (.error e, r) => .error (unreadable .operand e r)
        | (.ok operand, r) =>
          match readInstructions n r with
          | .error e => .error e
          | .ok (p, r) => .ok (⟨tag, operand⟩ :: p, r)

/-- Whether the bytes left are known to be too few for `count` instructions. -/
def lacks (r : Reader) (count : Nat) : Option DecodeError :=
  match r.left? with
  | some left =>
    if left < count * instructionSize then some ⟨r.position, .missing count left⟩ else none
  | none => none

/-- Reads a number of instructions and the instructions. The number is checked against the bytes
left before any instruction is read. -/
def readBody (r : Reader) : Except DecodeError (Program × Reader) :=
  match r.u32 with
  | (.error e, r) => .error (unreadable .count e r)
  | (.ok count, r) =>
    match lacks r count.toNat with
    | some e => .error e
    | none => readInstructions count.toNat r

def read (start : Reader) : Except DecodeError (Program × Reader) :=
  match start.bytes magic.length with
  | (.error e, r) => .error (unreadable .magic e r)
  | (.ok found, r) =>
    if found ≠ magic then .error ⟨start.position, .wrongMagic found⟩
    else
      match r.u16 with
      | (.error e, r) => .error (unreadable .version e r)
      | (.ok found, r) =>
        if found ≠ version then .error ⟨start.position + magic.length, .wrongVersion found⟩
        else readBody r

/-- The program that the bytes encode, with no bytes left over. -/
def decode (bytes : List UInt8) : Except DecodeError Program :=
  match read (.ofBytes bytes) with
  | .error e => .error e
  | .ok (p, r) =>
    if r.rest.isEmpty then .ok p else .error ⟨r.position, .trailing r.rest.length⟩

/-- Reads programs until no bytes are left, at most `fuel` of them. -/
def readAll : Nat → Reader → Except DecodeError (List Program)
  | 0, _ => .ok []
  | fuel + 1, r =>
    if r.rest.isEmpty then .ok []
    else
      match read r with
      | .error e => .error e
      | .ok (p, r) =>
        match readAll fuel r with
        | .error e => .error e
        | .ok ps => .ok (p :: ps)

/-- The programs that the bytes encode one after the other. There are no more programs than bytes,
since every program takes at least one. -/
def decodeAll (bytes : List UInt8) : Except DecodeError (List Program) :=
  readAll bytes.length (.ofBytes bytes)

end StackMachine.Program
