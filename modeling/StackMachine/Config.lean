import StackMachine.Assembly.Source
import StackMachine.Log
import StackMachine.Machine
import StackMachine.SaveMode

/-!
# Configurations

A configuration says how programs are read, run and saved. Its fields hold what was asked for, also
if that makes no sense; `Config.objection?` finds the first thing that does not.
-/

namespace StackMachine

/-- A run is stopped after `stepLimit` steps and a stack is bounded by `maxStack` values, unless
these are zero. `saveMode` and `logLevel` are names. -/
structure Config where
  stepLimit : Int := 0
  maxStack : Int := 0
  saveMode : String := "append"
  strictAsm : Bool := false
  labels : Bool := false
  logLevel : String := "info"
  deriving DecidableEq, Repr

namespace Config

/-- The configuration in which nothing was asked for. -/
def blank : Config := { saveMode := "", logLevel := "" }

inductive Objection where
  | negativeStepLimit (n : Int)
  | negativeMaxStack (n : Int)
  | unknownSaveMode (name : String)
  | unknownLogLevel (name : String)
  deriving DecidableEq, Repr

namespace Objection

def failure : Objection → Failure
  | negativeStepLimit n =>
    .invalidInput .config ("step_limit must not be negative, got " ++ toString n)
  | negativeMaxStack n =>
    .invalidInput .config ("max_stack must not be negative, got " ++ toString n)
  | unknownSaveMode name => SaveMode.unknownName (.ofString name)
  | unknownLogLevel name =>
    .wrap .config .invalidInput ("log_level " ++ quote name)
      (some (.plain ("unrecognized level: " ++ quote name)))

end Objection

/-- The save mode, `append` if there is none of that name. -/
def mode (c : Config) : SaveMode := (SaveMode.ofName? (.ofString c.saveMode)).getD .append

/-- The log level; no name means `info`. -/
def level (c : Config) : Except Objection Level :=
  if c.logLevel = "" then .ok .info
  else
    match Level.ofName? c.logLevel with
    | some l => .ok l
    | none => .error (.unknownLogLevel c.logLevel)

def objection? (c : Config) : Option Objection :=
  if c.stepLimit < 0 then some (.negativeStepLimit c.stepLimit)
  else if c.maxStack < 0 then some (.negativeMaxStack c.maxStack)
  else if (SaveMode.ofName? (.ofString c.saveMode)).isNone then some (.unknownSaveMode c.saveMode)
  else
    match c.level with
    | .error e => some e
    | .ok _ => none

def assembly (c : Config) : Assembly.Options := { strict := c.strictAsm, labels := c.labels }

def machine (c : Config) (p : Option Program) : Machine := (Machine.empty c.maxStack).load p

end Config

end StackMachine
