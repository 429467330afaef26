import StackMachine.Config
import StackMachine.Machine.InPlace

/-!
# Runs

A run steps a machine until it halts, faults, has taken as many steps as the configuration allows,
or is cancelled. Before every instruction the observers are told about it, in their order. What
observers keep is the state of the watch; whether the run is cancelled may depend on it.

A run without a limit need not end, so `Runner.run` takes a bound on its length; a run with a limit
needs none.
-/

namespace StackMachine

/-- What an observer is told before an instruction: where it stands, what it is, and how many values
the stack holds. -/
structure Observation where
  pc : Int
  instruction : Instruction
  depth : Nat
  deriving DecidableEq, Repr

inductive Stop where
  | halted
  | faulted (fault : Fault)
  | limitReached
  | cancelled
  deriving DecidableEq, Repr

namespace Stop

/-- The failure that ended the run; halting is none. -/
def failure? : Stop → Option Failure
  | halted => none
  | faulted f => some f.failure
  | limitReached => some (.plain "runtime: step limit reached")
  | cancelled => some (.plain "context canceled")

/-- The kind of the fault that ended the run, `ok` if none did. -/
def faultKind : Stop → Kind
  | faulted f => f.kind
  | halted | limitReached | cancelled => .ok

end Stop

/-- How machines are run. `threshold` is for the entries that a run writes to the log, and
`machineThreshold` for those of the machine. -/
structure Runner (σ : Type) where
  config : Config
  observers : List (Observation → σ → σ) := []
  cancelled : σ → Bool := fun _ => false
  threshold : Threshold := none
  machineThreshold : Threshold := none

/-- A run on its way: the machine, the steps that succeeded, the state of the watch and the log. -/
structure Progress (σ : Type) where
  machine : Machine
  steps : Nat := 0
  watch : σ
  log : Log := #[]

structure Outcome (σ : Type) extends Progress σ where
  stop : Stop

/-- What a run reports. The stack is bottom first, and `fault` is `ok` unless a fault ended the
run. -/
structure Result where
  failure : Option Failure
  stack : List Int32
  fault : Kind
  steps : Nat
  pc : Int
  halted : Bool
  deriving DecidableEq, Repr

def Outcome.result {σ : Type} (o : Outcome σ) : Result :=
  { failure := o.stop.failure?, stack := o.machine.values, fault := o.stop.faultKind,
    steps := o.steps, pc := o.machine.pc, halted := o.machine.halted }

namespace Runner

variable {σ : Type}

/-- Whether the run has taken as many steps as it may. -/
def isSpent (r : Runner σ) (steps : Nat) : Bool :=
  0 < r.config.stepLimit && r.config.stepLimit ≤ steps

/-- Tells the observers about the next instruction, if there is one. -/
def observe (r : Runner σ) (m : Machine) (watch : σ) : σ :=
  if r.observers.isEmpty then watch
  else
    match m.current? with
    | none => watch
    | some i => r.observers.foldl (fun watch o => o ⟨m.pc, i, m.depth⟩ watch) watch

/-- Takes one step, unless there is a reason to stop. -/
def advance (r : Runner σ) (p : Progress σ) : Progress σ × Option Stop :=
  if p.machine.halted then (p, some .halted)
  else if r.cancelled p.watch then (p, some .cancelled)
  else if r.isSpent p.steps then (p, some .limitReached)
  else
    let watch := r.observe p.machine p.watch
    let log := p.machine.traceStep r.machineThreshold p.log
    match p.machine.attempt with
    | (machine, some f) => ({ p with machine, watch, log }, some (.faulted f))
    | (machine, none) => ({ machine, steps := p.steps + 1, watch, log }, none)

/-- Steps until there is a reason to stop, which has to come up within `fuel` attempts. -/
def proceed (r : Runner σ) : Nat → Progress σ → Option (Outcome σ)
  | 0, _ => none
  | fuel + 1, p =>
    match r.advance p with
    | (p, some stop) => some { p with stop }
    | (p, none) => proceed r fuel p

def startEntry (r : Runner σ) (m : Machine) : Log.Entry :=
  { level := .debug, source := "", message := "run started",
    fields := [("pc", .number m.pc), ("instructions", .number m.instructions.length),
      ("step_limit", .number r.config.stepLimit)] }

def stopEntry (o : Outcome σ) : Log.Entry :=
  let fields := [("steps", .number o.steps), ("pc", .number o.machine.pc),
    ("depth", .number o.machine.depth), ("fault", .text o.stop.faultKind.name)]
  match o.stop.failure? with
  | none => { level := .debug, source := "", message := "run halted", fields }
  | some f =>
    { level := .info, source := ""
      message := if o.stop.faultKind.isFault then "run faulted" else "run stopped"
      fields := fields ++ [("error", .text f.message)] }

/-- A run with a limit attempts one step more than it may take. -/
def attempts (r : Runner σ) (fuel : Nat) : Nat :=
  if 0 < r.config.stepLimit then r.config.stepLimit.toNat + 1 else fuel

/-- Runs the machine from its state on. Without a limit the run has to end within `fuel`
attempts. -/
def run (r : Runner σ) (fuel : Nat) (m : Machine) (watch : σ) (log : Log) : Option (Outcome σ) :=
  let log := log.write r.threshold [r.startEntry m]
  (r.proceed (r.attempts fuel) { machine := m, watch, log }).map fun o =>
    { o with log := o.log.write r.threshold [stopEntry o] }

end Runner

end StackMachine
