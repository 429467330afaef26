import StackMachine.Files.Store
import StackMachine.Machine.Listing
import StackMachine.Runner

/-!
# Batch runs

A batch run loads a program, saves it if asked to, and either prints it as assembly or runs it and
prints how that went. A program that faults, or is stopped, is a result like others; only trouble
with files makes a batch run fail.
-/

namespace StackMachine.Batch

/-- Empty paths stand for files that are not wanted. -/
structure Options where
  input : String := ""
  /-- Where to save the program. -/
  output : String := ""
  /-- Where to save the state of the machine at the end. -/
  state : String := ""
  /-- Reads the input as assembly, whatever its name. -/
  forceAssembly : Bool := false
  /-- Prints the program as assembly instead of running it. -/
  disassemble : Bool := false
  /-- Replaces the output instead of following the configuration. -/
  truncate : Bool := false
  deriving DecidableEq, Repr

/-- What a batch run leaves behind. `code` is zero if all went well. -/
structure Report where
  code : Nat
  output : String := ""
  failure : Option Failure := none
  tree : FileTree
  log : Log := #[]

def load (o : Options) (c : Config) (t : FileTree) : Except Failure Program :=
  if o.forceAssembly then t.loadAssembly o.input c else t.loadProgram o.input c

def mode (o : Options) (c : Config) : SaveMode := if o.truncate then .truncate else c.mode

def loadedEntry (o : Options) (p : Program) : Log.Entry :=
  { level := .debug, source := "", message := "program loaded",
    fields := [("path", .text o.input), ("instructions", .number p.length)] }

def savedEntry (o : Options) (c : Config) : Log.Entry :=
  { level := .info, source := "", message := "program saved",
    fields := [("path", .text o.output), ("mode", .text (mode o c).name)] }

def save (o : Options) (c : Config) (p : Program) (t : FileTree) : FileTree × Option Failure :=
  if o.output = "" then (t, none) else t.saveProgram o.output p (mode o c)

def store (o : Options) (m : Machine) (t : FileTree) : FileTree × Option Failure :=
  if o.state = "" then (t, none) else t.saveSnapshot o.state m.snapshot

def summary {σ : Type} (c : Config) (o : Outcome σ) : String :=
  "Result: " ++
    match o.stop with
    | .halted => Kind.ok.name ++ " after " ++ toString o.steps ++ " steps\n"
    | .faulted f =>
      f.kind.name ++ " after " ++ toString o.steps ++ " steps\n\t" ++ f.failure.message ++ "\n"
    | .limitReached => "step limit of " ++ toString c.stepLimit ++ " reached\n"
    | .cancelled =>
      "stopped after " ++ toString o.steps ++ " steps: " ++
        ((Stop.failure? .cancelled).map Failure.message).getD "" ++ "\n"

/-- Counts the instructions of a run, which is cancelled where `cancelled` holds of their number. -/
def runner (c : Config) (threshold : Threshold) (cancelled : Nat → Bool) : Runner Nat :=
  { config := c, observers := [fun _ n => n + 1], cancelled, threshold,
    machineThreshold := threshold }

def runProgram (o : Options) (c : Config) (threshold : Threshold) (cancelled : Nat → Bool)
    (fuel : Nat) (p : Program) (t : FileTree) (log : Log) : Option Report :=
  let m := c.machine (some p)
  let log := Machine.traceLoad (some p) threshold log
  ((runner c threshold cancelled).run fuel m 0 log).map fun outcome =>
    let code := if outcome.stop = .halted then 0 else 1
    let output := m.programListing ++ summary c outcome ++ outcome.machine.stackListing
    match store o outcome.machine t with
    | (t, none) => { code, output, tree := t, log := outcome.log }
    | (t, some f) => { code := 1, output, failure := some f, tree := t, log := outcome.log }

/-- A whole batch run. Running the program is cancelled as soon as `cancelled` holds of the number of
steps; without a step limit, it has to end within `fuel` attempts at a step. -/
def runUnless (o : Options) (c : Config) (threshold : Threshold) (cancelled : Nat → Bool)
    (fuel : Nat) (t : FileTree) : Option Report :=
  match load o c t with
  | .error f => some { code := 1, failure := some f, tree := t }
  | .ok p =>
    let log := Log.write #[] threshold [loadedEntry o p]
    match save o c p t with
    | (t, some f) => some { code := 1, failure := some f, tree := t, log }
    | (t, none) =>
      let log := if o.output = "" then log else log.write threshold [savedEntry o c]
      if o.disassemble then
        some { code := 0, output := String.ofList p.assembly, tree := t, log }
      else runProgram o c threshold cancelled fuel p t log

/-- A batch run that is cancelled from the start on, or not at all. -/
def run (o : Options) (c : Config) (threshold : Threshold) (cancelled : Bool) (fuel : Nat)
    (t : FileTree) : Option Report :=
  runUnless o c threshold (fun _ => cancelled) fuel t

end StackMachine.Batch
