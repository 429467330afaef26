import StackMachine.Config
import StackMachine.Toml.Document
import StackMachine.Toml.Statement

/-!
# Configuration files

A configuration file is a TOML file that gives values to some of the six fields of a configuration;
the others keep their defaults. The names of the fields may be written in any case, and every other
key is refused.
-/

namespace StackMachine.Config

open Toml

inductive FileError where
  /-- The file is no TOML, or a field has a value of another type. -/
  | malformed
  | unknownKeys (keys : List Key)
  | objection (o : Objection)

def FileError.failure (path : String) : FileError → Failure
  | malformed => .wrap .config .invalidData ("parse " ++ path) none
  | unknownKeys keys =>
    .invalidInput .config (path ++ ": unknown keys " ++ ", ".intercalate (keys.map renderKey))
  | objection o => o.failure

inductive Field where
  | stepLimit
  | maxStack
  | saveMode
  | strictAsm
  | labels
  | logLevel
  deriving DecidableEq, Repr

namespace Field

def all : List Field := [stepLimit, maxStack, saveMode, strictAsm, labels, logLevel]

def name : Field → String
  | stepLimit => "step_limit"
  | maxStack => "max_stack"
  | saveMode => "save_mode"
  | strictAsm => "strict_asm"
  | labels => "labels"
  | logLevel => "log_level"

/-- The field of that name in any case. -/
def ofName? (s : String) : Option Field := all.find? fun f => sameName f.name s

/-- Gives a field a value, which has to be of the type of the field. -/
def set (f : Field) (v : Value) (c : Config) : Option Config :=
  match f, v with
  | stepLimit, .integer n => some { c with stepLimit := n }
  | maxStack, .integer n => some { c with maxStack := n }
  | saveMode, .string s => some { c with saveMode := s }
  | strictAsm, .boolean b => some { c with strictAsm := b }
  | labels, .boolean b => some { c with labels := b }
  | logLevel, .string s => some { c with logLevel := s }
  | _, _ => none

end Field

/-- Sets the fields that the names stand for. Other names change nothing. -/
def setAll (c : Config) : List (String × Shape) → Option Config
  | [] => some c
  | (name, shape) :: rest =>
    match Field.ofName? name, shape with
    | none, _ => c.setAll rest
    | some f, .value v =>
      match f.set v c with
      | some c => c.setAll rest
      | none => none
    | some _, _ => none

def isUnknown : Key → Bool
  | [name] => (Field.ofName? name).isNone
  | _ => true

/-- The configuration that a document describes, before it is looked at as a whole. -/
def ofDocument (d : Document) : Except FileError Config :=
  match setAll {} d.roots with
  | none => .error .malformed
  | some c =>
    match d.keys.filter isUnknown with
    | [] => .ok c
    | unknown => .error (.unknownKeys unknown)

def parse (content : List UInt8) : Except FileError Config :=
  match (Toml.parse? content).bind Document.ofStatements? with
  | none => .error .malformed
  | some d =>
    match ofDocument d with
    | .error e => .error e
    | .ok c =>
      match c.objection? with
      | some o => .error (.objection o)
      | none => .ok c

end StackMachine.Config
