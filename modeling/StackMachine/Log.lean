import StackMachine.Text.Case

/-!
# Logs

A log is a sequence of entries. Whoever writes to a log has a threshold, the least level that is
kept; without a threshold nothing is.
-/

namespace StackMachine

inductive Level where
  | debug
  | info
  | warn
  | error
  | dpanic
  | panic
  | fatal
  deriving DecidableEq, Repr

namespace Level

/-- Every level, least severe first. -/
def all : List Level := [debug, info, warn, error, dpanic, panic, fatal]

def name : Level → String
  | debug => "debug"
  | info => "info"
  | warn => "warn"
  | error => "error"
  | dpanic => "dpanic"
  | panic => "panic"
  | fatal => "fatal"

/-- The position of a level in `all`. -/
def severity : Level → Nat
  | debug => 0
  | info => 1
  | warn => 2
  | error => 3
  | dpanic => 4
  | panic => 5
  | fatal => 6

/-- The level of a name in any case; "warning" is another name of `warn`. -/
def ofName? (s : String) : Option Level :=
  let lower := String.ofList (s.toList.map lowerCase)
  if lower = "warning" then some warn else all.find? (·.name = lower)

/-- The levels that are kept from this threshold on. -/
def enabled (threshold : Level) : List Level := all.filter (threshold.severity ≤ ·.severity)

end Level

namespace Log

inductive Value where
  | number (n : Int)
  | text (s : String)
  deriving DecidableEq, Repr

/-- A message with named values. `source` names the part of the program that wrote it. -/
structure Entry where
  level : Level
  source : String
  message : String
  fields : List (String × Value)
  deriving DecidableEq, Repr

end Log

/-- The entries kept so far, oldest first. -/
abbrev Log := Array Log.Entry

/-- The least level that is kept, if any is. -/
abbrev Threshold := Option Level

namespace Threshold

def keeps (t : Threshold) (l : Level) : Bool :=
  match t with
  | some least => least.severity ≤ l.severity
  | none => false

end Threshold

namespace Log

/-- Adds the entries whose level is kept. -/
def write (log : Log) (t : Threshold) (entries : List Entry) : Log :=
  entries.foldl (fun log e => if t.keeps e.level then log.push e else log) log

end Log

end StackMachine
