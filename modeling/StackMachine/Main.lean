import StackMachine.Command

/-!
# The program

Brings the part of the file system that the arguments name into a file tree, runs the command on it,
and carries out what the command has changed.
-/

namespace StackMachine

def Place.path (place : Place) : String := "/" ++ "/".intercalate place

/-- Adds what is found at a place to a tree. -/
def look (t : FileTree) (place : Place) : IO FileTree := do
  let file := (← IO.currentDir) / Place.path place
  if ← file.isDir then return t.put place .directory
  else if ← file.pathExists then return t.put place (.file (← IO.FS.readBinFile file).toList)
  else return t

/-- Adds everything on the way to a path to a tree. -/
def survey (t : FileTree) (path : String) : IO FileTree := do
  let mut t := t
  let mut place := t.start path
  for part in Path.parts path do
    if part = ".." then place := place.dropLast
    else if !FileTree.isStep part then place := place ++ [part]
    t ← look t place
  return t

/-- The tree of everything that the command can reach. -/
def surveyAll (s : Command.Settings) : IO FileTree := do
  let here := (Path.parts (← IO.currentDir).toString).filter (· ≠ "")
  let mut t : FileTree := { here }
  for n in List.range here.length do
    t := t.put (here.take (n + 1)) .directory
  for path in [s.config, s.input, s.output, s.state] do
    t ← survey t path
  return t

/-- Makes the file system like a tree, given what it was like before. -/
def carryOut (old new : FileTree) : IO Unit := do
  for (place, node) in new.nodes do
    if old.node? place ≠ some node then
      let file := (← IO.currentDir) / Place.path place
      match node with
      | .directory => IO.FS.createDirAll file
      | .file content => IO.FS.writeBinFile file (ByteArray.mk content.toArray)

/-- Runs the command with greater and greater bounds until one suffices. -/
partial def runFully (arguments : List String) (t : FileTree) (fuel : Nat) : IO Command.Exit :=
  match Command.run arguments fuel t with
  | some exit => return exit
  | none => runFully arguments t (4 * fuel)

end StackMachine

open StackMachine in
def main (arguments : List String) : IO UInt32 := do
  let settings := (Command.parseFlags arguments).toOption.getD {}
  let t ← surveyAll settings
  let exit ← runFully arguments t 100000
  carryOut t exit.tree
  for entry in exit.log do
    IO.eprintln (entry.level.name ++ "\t" ++ entry.message)
  IO.print exit.output
  IO.eprint exit.complaint
  return exit.code.toUInt32
