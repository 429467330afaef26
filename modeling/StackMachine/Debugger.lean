import StackMachine.Debugger.Field
import StackMachine.Runner

/-!
# The debugger

The debugger steps a program on request: one step, a number of steps, or until the program ends. It
counts the steps that succeeded, keeps the first fault, and can start again. While a number of steps
is being typed, all keys but enter and escape go to a text field.
-/

namespace StackMachine

/-- `config` and `program` are for starting again. Once there is a fault, or the machine has halted,
no more steps are taken. -/
structure Debugger where
  name : String
  config : Config
  program : Option Program
  machine : Machine
  steps : Nat := 0
  fault : Option Fault := none
  status : String := ""
  entering : Bool := false
  field : Debugger.Field := {}
  deriving DecidableEq, Repr

namespace Debugger

def start (name : String) (config : Config) (program : Option Program) : Debugger :=
  { name, config, program, machine := config.machine program }

def canStep (d : Debugger) : Bool := d.fault.isNone && !d.machine.halted

def stopped : String := "machine stopped, press x to reset"

/-- Steps at most `n` times, until the machine halts or faults. -/
def advance : Nat → Debugger → Debugger
  | 0, d => d
  | n + 1, d =>
    if d.machine.halted then d
    else
      match d.machine.step with
      | .error f => { d with fault := some f }
      | .ok machine => advance n { d with machine, steps := d.steps + 1 }

/-- Takes `n` steps if it can take any. -/
def stepMany (n : Nat) (d : Debugger) : Debugger :=
  if d.canStep then { advance n d with status := "" } else { d with status := stopped }

/-- The step limit of a run if the configuration has none. -/
def runLimit : Int := 100000

/-- The configuration of a run, which always has a limit unless a negative one was asked for. -/
def runConfig (d : Debugger) : Config :=
  if d.config.stepLimit = 0 then { d.config with stepLimit := runLimit } else d.config

/-- The debugger after a run. Reaching the limit is no fault. -/
def afterRun (d : Debugger) (o : Outcome Unit) : Debugger :=
  let d := { d with machine := o.machine, steps := d.steps + o.steps, status := "" }
  match o.stop with
  | .faulted f => { d with fault := some f }
  | stop => { d with status := (stop.failure?.map Failure.message).getD "" }

/-- Runs the program. A run without a limit has to end within `fuel` attempts at a step. -/
def run (fuel : Nat) (d : Debugger) : Option Debugger :=
  if d.canStep then
    let runner : Runner Unit := { config := d.runConfig }
    (runner.run fuel d.machine () #[]).map d.afterRun
  else some { d with status := stopped }

def reset (d : Debugger) : Debugger :=
  { d with machine := d.config.machine d.program, fault := none, steps := 0, status := "reset" }

/-- Takes as many steps as the text field says. -/
def enter (d : Debugger) : Debugger :=
  let raw := (Text.ofChars d.field.value).trim
  let d := { d with entering := false, field := {} }
  let refused : Debugger := { d with status := "not a step count: " ++ raw.quoted }
  match Numeral.read 64 raw with
  | .ok n => if 0 < n then d.stepMany n.toNat else refused
  | .error _ => refused

/-- What a key does while a number is being typed. -/
def pressEntering (d : Debugger) (k : Key) : Debugger :=
  match k.name with
  | "enter" => d.enter
  | "esc" => { d with entering := false, field := {} }
  | _ => { d with field := d.field.press k }

def quits (d : Debugger) (k : Key) : Bool := !d.entering && (k.name = "ctrl+c" || k.name = "q")

/-- The failure that a key ends the debugger with, if it does. -/
def breakdown? (d : Debugger) (k : Key) : Option Failure :=
  if d.entering && d.field.overruns k then
    let length := toString d.field.value.length
    some (.plain ("runtime error: index out of range [" ++ length ++ "] with length " ++ length))
  else none

/-- What a key does. A run without a limit has to end within `fuel` attempts at a step. -/
def press (fuel : Nat) (d : Debugger) (k : Key) : Option Debugger :=
  if d.entering then some (d.pressEntering k)
  else
    match k.name with
    | "s" | " " => some (d.stepMany 1)
    | "r" => d.run fuel
    | "n" => some (if d.canStep then { d with entering := true } else d)
    | "x" => some d.reset
    | _ => some d

end Debugger

end StackMachine
