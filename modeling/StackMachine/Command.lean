import StackMachine.Command.Flags

/-!
# The command

The command reads its flags and its configuration, and then does a batch run. What it prints and the
code it exits with are functions of its arguments and of the file tree.
-/

namespace StackMachine.Command

structure Exit where
  code : Nat
  output : String := ""
  /-- What is printed as an error. -/
  complaint : String := ""
  tree : FileTree
  log : Log := #[]

/-- Printed if there is no program to run. -/
def shortUsage : String :=
  "Usage: run -input <prog.asm|prog.bin> [-config file.toml] [-limit n] [-output file] " ++
  "[-state file]\n" ++
  "       run -input <prog> -disasm\n" ++
  "       run -input <prog> -i  (interactive mode)\n"

def complain (f : Failure) : String := "Error: " ++ f.message ++ "\n"

/-- The configuration, with the limit of the flags if there is one. -/
def configure (s : Settings) (t : FileTree) : Except Failure Config :=
  match t.loadConfig s.config with
  | .error f => .error f
  | .ok c => .ok (if 0 ≤ s.limit then { c with stepLimit := s.limit } else c)

def threshold (s : Settings) (c : Config) : Except Failure Level :=
  if s.verbose then .ok .debug
  else
    match c.level with
    | .error e => .error e.failure
    | .ok l => .ok l

/-- Written to the log if the debugger was asked for. -/
def batchEntry : Log.Entry :=
  { level := .info, source := "", message := "stdout is not a terminal, running in batch mode",
    fields := [] }

def runWith (s : Settings) (fuel : Nat) (t : FileTree) : Option Exit :=
  if s.input = "" then some { code := 1, complaint := shortUsage, tree := t }
  else
    match configure s t with
    | .error f => some { code := 1, complaint := complain f, tree := t }
    | .ok c =>
      match threshold s c with
      | .error f => some { code := 1, complaint := complain f, tree := t }
      | .ok level =>
        let log : Log :=
          if s.interactive && !s.disassemble then Log.write #[] (some level) [batchEntry] else #[]
        (Batch.run s.toOptions c (some level) false fuel t).map fun r =>
          { code := r.code
            output := r.output
            complaint := (r.failure.map complain).getD ""
            tree := r.tree
            log := log ++ r.log }

def run (arguments : List String) (fuel : Nat) (t : FileTree) : Option Exit :=
  match parseFlags arguments with
  | .error e => some { code := e.code, complaint := e.message ++ usage, tree := t }
  | .ok s => runWith s fuel t

end StackMachine.Command
