import StackMachine.Command.Batch
import StackMachine.Text.Prefixed

/-!
# Flags

The command takes flags in front of its other arguments. A flag begins with one or two dashes; its
value follows an equals sign or, unless the flag is a switch, is the next argument. Reading stops
before the first argument that is no flag and after `--`. A later flag overrides an earlier one.
-/

namespace StackMachine.Command

/-- What the flags say. A negative limit leaves the limit to the configuration. -/
structure Settings extends Batch.Options where
  config : String := ""
  limit : Int := -1
  verbose : Bool := false
  interactive : Bool := false
  deriving DecidableEq, Repr

/-- Flags with a value. -/
inductive TextFlag where
  | config
  | input
  | output
  | state
  deriving DecidableEq, Repr

/-- Flags that are on or off. -/
inductive Switch where
  | asm
  | disasm
  | interactive
  | truncate
  | verbose
  deriving DecidableEq, Repr

inductive Flag where
  | text (f : TextFlag)
  | limit
  | switch (s : Switch)
  deriving DecidableEq, Repr

namespace Flag

def name : Flag → String
  | text .config => "config"
  | text .input => "input"
  | text .output => "output"
  | text .state => "state"
  | limit => "limit"
  | switch .asm => "asm"
  | switch .disasm => "disasm"
  | switch .interactive => "i"
  | switch .truncate => "truncate"
  | switch .verbose => "v"

def help : Flag → String
  | text .config => "TOML configuration file"
  | text .input => "Program to run (.asm/.svm assembly, anything else binary)"
  | text .output => "Save the program in binary form to this file"
  | text .state => "Write the final machine state (CBOR) to this file"
  | limit => "Step limit, overrides the config (0 = unlimited) (default -1)"
  | switch .asm => "Treat input as assembly regardless of extension"
  | switch .disasm => "Print the program as assembly and exit"
  | switch .interactive => "Interactive step debugger"
  | switch .truncate => "Overwrite -output instead of appending"
  | switch .verbose => "Debug logging"

/-- Every flag, in the order of the names. -/
def all : List Flag :=
  [switch .asm, text .config, switch .disasm, switch .interactive, text .input, limit, text .output,
    text .state, switch .truncate, switch .verbose]

def ofName? (s : String) : Option Flag := all.find? (·.name = s)

/-- The lines about a flag in the usage text. The help stands on the line of the flag only if that
has a name of one letter and takes no value. -/
def usage (f : Flag) : String :=
  let kind := match f with
    | text _ => " string"
    | limit => " int"
    | switch _ => ""
  let lead := "  -" ++ f.name ++ kind
  lead ++ (if lead.length ≤ 4 then "\t" else "\n    \t") ++ f.help ++ "\n"

end Flag

def usage : String := "Usage of run:\n" ++ String.join (Flag.all.map Flag.usage)

inductive FlagError where
  /-- The usage text was asked for. -/
  | help
  | badSyntax (argument : String)
  | undefined (name : String)
  | missingValue (f : Flag)
  | badNumber (f : Flag) (value : String) (fault : Numeral.Fault)
  | badSwitch (f : Flag) (value : String)
  deriving DecidableEq, Repr

namespace FlagError

def reason : Numeral.Fault → String
  | .malformed => "parse error"
  | .outOfRange => "value out of range"

/-- What is printed in front of the usage text. -/
def message : FlagError → String
  | help => ""
  | badSyntax argument => "bad flag syntax: " ++ argument ++ "\n"
  | undefined name => "flag provided but not defined: -" ++ name ++ "\n"
  | missingValue f => "flag needs an argument: -" ++ f.name ++ "\n"
  | badNumber f value fault =>
    "invalid value " ++ quote value ++ " for flag -" ++ f.name ++ ": " ++ reason fault ++ "\n"
  | badSwitch f value =>
    "invalid boolean value " ++ quote value ++ " for -" ++ f.name ++ ": parse error\n"

def code : FlagError → Nat
  | help => 0
  | _ => 2

end FlagError

namespace Settings

def setText (s : Settings) (f : TextFlag) (value : String) : Settings :=
  match f with
  | .config => { s with config := value }
  | .input => { s with input := value }
  | .output => { s with output := value }
  | .state => { s with state := value }

def setSwitch (s : Settings) (f : Switch) (on : Bool) : Settings :=
  match f with
  | .asm => { s with forceAssembly := on }
  | .disasm => { s with disassemble := on }
  | .interactive => { s with interactive := on }
  | .truncate => { s with truncate := on }
  | .verbose => { s with verbose := on }

end Settings

def bool? (value : String) : Option Bool :=
  if ["1", "t", "T", "true", "TRUE", "True"].contains value then some true
  else if ["0", "f", "F", "false", "FALSE", "False"].contains value then some false
  else none

def setFlag (f : Flag) (value : String) (s : Settings) : Except FlagError Settings :=
  match f with
  | .text t => .ok (s.setText t value)
  | .limit =>
    match Numeral.readPrefixed 64 value.toList with
    | .ok n => .ok { s with limit := n }
    | .error e => .error (.badNumber f value e)
  | .switch w =>
    match bool? value with
    | some on => .ok (s.setSwitch w on)
    | none => .error (.badSwitch f value)

inductive Argument where
  /-- Reading stops before it. -/
  | other
  /-- Reading stops after it. -/
  | terminator
  | malformed
  | flag (name : String) (value : Option String)
  deriving DecidableEq, Repr

/-- Splits the text of a flag at the first equals sign that is not its first character. -/
def splitValue (cs : List Char) : Argument :=
  let name := cs.take 1 ++ (cs.drop 1).takeWhile (· ≠ '=')
  match cs.drop name.length with
  | [] => .flag (String.ofList name) none
  | _ :: value => .flag (String.ofList name) (some (String.ofList value))

def Argument.ofText (argument : String) : Argument :=
  let named (cs : List Char) : Argument :=
    match cs with
    | [] => .malformed
    | c :: _ => if c = '-' || c = '=' then .malformed else splitValue cs
  match argument.toList with
  | ['-'] => .other
  | ['-', '-'] => .terminator
  | '-' :: '-' :: cs => named cs
  | '-' :: cs => named cs
  | _ => .other

/-- Follows a flag with the arguments after it, and returns those that are left. -/
def follow (name : String) (value : Option String) (rest : List String) (s : Settings) :
    Except FlagError (Settings × List String) :=
  match Flag.ofName? name with
  | none => .error (if name = "help" || name = "h" then .help else .undefined name)
  | some f =>
    match f, value, rest with
    | _, some v, rest => (setFlag f v s).map (·, rest)
    | .switch _, none, rest => (setFlag f "true" s).map (·, rest)
    | _, none, v :: rest => (setFlag f v s).map (·, rest)
    | _, none, [] => .error (.missingValue f)

/-- Follows all flags in front of the other arguments, of which there are at most `fuel`. -/
def followAll : Nat → List String → Settings → Except FlagError Settings
  | 0, _, s => .ok s
  | _ + 1, [], s => .ok s
  | fuel + 1, argument :: rest, s =>
    match Argument.ofText argument with
    | .other | .terminator => .ok s
    | .malformed => .error (.badSyntax argument)
    | .flag name value =>
      match follow name value rest s with
      | .error e => .error e
      | .ok (s, rest) => followAll fuel rest s

def parseFlags (arguments : List String) : Except FlagError Settings :=
  followAll arguments.length arguments {}

end StackMachine.Command
