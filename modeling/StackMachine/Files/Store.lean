import StackMachine.Config.File
import StackMachine.Files.Tree
import StackMachine.Program.Codec
import StackMachine.Snapshot.Codec

/-!
# Stored programs, snapshots and configurations

A program file holds encoded programs one after the other; saving appends to it or replaces it. A
source file holds assembly. Programs, snapshots and configurations are read from a file tree, and
saving gives the tree after it, also where saving fails half-way.
-/

namespace StackMachine.FileTree

/-- The content of a file that is needed in some phase. -/
def contentFor (t : FileTree) (phase : Phase) (path : String) : Except Failure (List UInt8) :=
  match t.read path with
  | .ok bytes => .ok bytes
  | .error f => .error (.fileSystem phase ("read " ++ path) (some f))

/-! ### Programs -/

/-- Makes the directory of a path, unless that is the current one. -/
def makeParent (t : FileTree) (path : String) : FileTree × Option Failure :=
  let directory := Path.directory path
  if directory = "." then (t, none)
  else
    match t.makeDirectories directory with
    | (t, some f) => (t, some (.fileSystem .save ("create directory " ++ directory) (some f)))
    | (t, none) => (t, none)

def writeProgram (t : FileTree) (path : String) (append : Bool) (bytes : List UInt8) :
    FileTree × Option Failure :=
  match t.write path append bytes with
  | .ok t => (t, none)
  | .error f => (t, some (.fileSystem .save ("open " ++ path) (some f)))

/-- Saves a program. It is encoded first; then its directory is made, and only then the mode is
looked at. -/
def saveProgram (t : FileTree) (path : String) (p : Program) (mode : SaveMode) :
    FileTree × Option Failure :=
  match p.encode with
  | .error e => (t, some e.failure)
  | .ok bytes =>
    match t.makeParent path with
    | (t, some f) => (t, some f)
    | (t, none) =>
      match mode with
      | .append => t.writeProgram path true bytes
      | .truncate => t.writeProgram path false bytes
      | .other code => (t, some (SaveMode.unknownCode code))

def loadPrograms (t : FileTree) (path : String) : Except Failure (List Program) :=
  match t.contentFor .load path with
  | .error f => .error f
  | .ok bytes =>
    match Program.decodeAll bytes with
    | .error e => .error (.context ("load " ++ path) e.failure)
    | .ok ps => .ok ps

def noProgram (path : String) : Failure :=
  .report { phase := .load, kind := .truncated, detail := path ++ " holds no program" }

/-- The first program of a file, all of which have to be well-formed. -/
def loadEncoded (t : FileTree) (path : String) : Except Failure Program :=
  match t.loadPrograms path with
  | .error f => .error f
  | .ok [] => .error (noProgram path)
  | .ok (p :: _) => .ok p

def loadAssembly (t : FileTree) (path : String) (c : Config) : Except Failure Program :=
  match t.contentFor .load path with
  | .error f => .error f
  | .ok bytes =>
    match Assembly.assemble c.assembly (Text.ofBytes bytes) with
    | .error e => .error (.context ("assemble " ++ path) e.failure)
    | .ok p => .ok p

/-- The program in a file, which is a source or encoded depending on its name. -/
def loadProgram (t : FileTree) (path : String) (c : Config) : Except Failure Program :=
  if Path.isAssembly path then t.loadAssembly path c else t.loadEncoded path

/-! ### Snapshots -/

/-- Replaces a file by a stored snapshot. -/
def saveSnapshot (t : FileTree) (path : String) (s : Snapshot) : FileTree × Option Failure :=
  match t.write path false s.encode with
  | .ok t => (t, none)
  | .error f => (t, some (.fileSystem .save ("write " ++ path) (some f)))

def loadSnapshot (t : FileTree) (path : String) : Except Failure Snapshot :=
  match t.contentFor .load path with
  | .error f => .error f
  | .ok bytes =>
    match Snapshot.decode? bytes with
    | some s => .ok s
    | none => .error (.wrap .load .invalidData path none)

/-! ### Configurations -/

/-- The configuration in a file; no path means the default one. -/
def loadConfig (t : FileTree) (path : String) : Except Failure Config :=
  if path = "" then .ok {}
  else
    match t.contentFor .config path with
    | .error f => .error f
    | .ok bytes =>
      match Config.parse bytes with
      | .error e => .error (e.failure path)
      | .ok c => .ok c

/-- What is left in hand after reading a configuration file: the configuration, or a failure with
the blank one. -/
def configAt (t : FileTree) (path : String) : Config × Option Failure :=
  match t.loadConfig path with
  | .ok c => (c, none)
  | .error f => (.blank, some f)

end StackMachine.FileTree
