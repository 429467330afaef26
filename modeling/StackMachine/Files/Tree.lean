import StackMachine.Failure
import StackMachine.Files.Path

/-!
# File trees

A file tree holds files and directories by their places. Paths are followed part by part from the
current directory, or from the root. Every part has to be followed from a directory, and all but the
last part of a path has to exist.
-/

namespace StackMachine

/-- The names that lead from the root to a file or a directory. -/
abbrev Place := List String

inductive Node where
  | file (content : List UInt8)
  | directory
  deriving DecidableEq, Repr

inductive SystemError where
  | noSuchFile
  | notDirectory
  | isDirectory
  | invalidArgument
  | nameTooLong
  deriving DecidableEq, Repr

namespace SystemError

def reason : SystemError → String
  | noSuchFile => "no such file or directory"
  | notDirectory => "not a directory"
  | isDirectory => "is a directory"
  | invalidArgument => "invalid argument"
  | nameTooLong => "file name too long"

def failure (operation path : String) (e : SystemError) : Failure :=
  .plain (operation ++ " " ++ path ++ ": " ++ e.reason)

end SystemError

/-- `nodes` holds everything but the root, and `here` is the current directory. -/
structure FileTree where
  nodes : List (Place × Node) := []
  here : Place := []
  deriving DecidableEq, Repr

namespace FileTree

/-- A name has at most this many bytes. -/
def maxName : Nat := 255

/-- A path has fewer bytes than this. -/
def maxPath : Nat := 4096

def node? (t : FileTree) (place : Place) : Option Node :=
  if place = [] then some .directory else t.nodes.lookup place

/-- Puts a file or a directory at a place, instead of what may be there. -/
def put (t : FileTree) (place : Place) (n : Node) : FileTree :=
  { t with nodes := (t.nodes.filter (·.1 ≠ place)) ++ [(place, n)] }

/-- Parts that name nothing new. -/
def isStep (part : String) : Bool := part = "" || part = "." || part = ".."

/-- Where one part leads from a place. The place has to be a directory, but the part need not
exist. -/
def target (t : FileTree) (place : Place) (part : String) : Except SystemError Place :=
  match t.node? place with
  | none => .error .noSuchFile
  | some (.file _) => .error .notDirectory
  | some .directory =>
    if part = "" || part = "." then .ok place
    else if part = ".." then .ok place.dropLast
    else if maxName < part.utf8ByteSize then .error .nameTooLong
    else .ok (place ++ [part])

/-- Follows parts from a place to another that exists. -/
def walk (t : FileTree) (place : Place) : List String → Except SystemError Place
  | [] => .ok place
  | part :: rest =>
    match t.target place part with
    | .error e => .error e
    | .ok next => if (t.node? next).isSome then t.walk next rest else .error .noSuchFile

/-- What is wrong with the text of a path, whatever the tree holds. -/
def objection? (path : String) : Option SystemError :=
  if path.toList.contains (Char.ofNat 0) then some .invalidArgument
  else if path = "" then some .noSuchFile
  else if maxPath ≤ path.utf8ByteSize then some .nameTooLong
  else none

def start (t : FileTree) (path : String) : Place := if Path.isAbsolute path then [] else t.here

/-- The place that a path leads to, which has to exist. -/
def resolve (t : FileTree) (path : String) : Except SystemError Place :=
  match objection? path with
  | some e => .error e
  | none => t.walk (t.start path) (Path.parts path)

/-- What a path leads to. -/
def stat (t : FileTree) (path : String) : Except SystemError Node :=
  match t.resolve path with
  | .error e => .error e
  | .ok place =>
    match t.node? place with
    | some n => .ok n
    | none => .error .noSuchFile

/-- The directory that a path leads into, which has to exist, and the part of the path that names
an entry of it. Slashes at the end of the path do not count. -/
def parent (t : FileTree) (path : String) : Except SystemError (Place × String) :=
  match objection? path with
  | some e => .error e
  | none =>
    match (Path.parts path).reverse.dropWhile (· = "") with
    | [] => .error .isDirectory
    | last :: before =>
      match t.walk (t.start path) (before.reverse ++ ["."]) with
      | .error e => .error e
      | .ok place => .ok (place, last)

/-- The place for a new entry of a directory that exists. -/
def newPlace (t : FileTree) (path : String) : Except SystemError Place :=
  match t.parent path with
  | .error e => .error e
  | .ok (place, last) => t.target place last

/-- The place of a file to be written, which need not exist. A path that ends in a slash, `.` or
`..` can only be a directory, whatever it names. -/
def destination (t : FileTree) (path : String) : Except SystemError Place :=
  match t.parent path with
  | .error e => .error e
  | .ok (place, last) =>
    if isStep ((Path.parts path).getLastD "") then .error .isDirectory
    else
      match t.target place last with
      | .error e => .error e
      | .ok place =>
        match t.node? place with
        | some .directory => .error .isDirectory
        | _ => .ok place

/-! ### Operations -/

def read (t : FileTree) (path : String) : Except Failure (List UInt8) :=
  match t.stat path with
  | .error e => .error (e.failure "open" path)
  | .ok (.file content) => .ok content
  | .ok .directory => .error (SystemError.isDirectory.failure "read" path)

def makeDirectory (t : FileTree) (path : String) : Except Failure FileTree :=
  match t.stat path with
  | .ok .directory => .ok t
  | .ok (.file _) => .error (SystemError.notDirectory.failure "mkdir" path)
  | .error _ =>
    match t.newPlace path with
    | .ok place => .ok (t.put place .directory)
    | .error e => .error (e.failure "mkdir" path)

/-- Adds directories one after the other, up to the first that cannot be. -/
def makeAll (t : FileTree) : List String → FileTree × Option Failure
  | [] => (t, none)
  | path :: rest =>
    match t.makeDirectory path with
    | .error f => (t, some f)
    | .ok t => t.makeAll rest

/-- Adds a directory and those on the way to it. -/
def makeDirectories (t : FileTree) (path : String) : FileTree × Option Failure :=
  t.makeAll (Path.stages path)

def contentAfter (t : FileTree) (place : Place) (append : Bool) (bytes : List UInt8) : List UInt8 :=
  match append, t.node? place with
  | true, some (.file old) => old ++ bytes
  | _, _ => bytes

/-- Writes to the file at a path, which is created if it does not exist. What it holds is kept in
front of the new bytes if `append`, and replaced otherwise. -/
def write (t : FileTree) (path : String) (append : Bool) (bytes : List UInt8) :
    Except Failure FileTree :=
  match t.destination path with
  | .error e => .error (e.failure "open" path)
  | .ok place => .ok (t.put place (.file (t.contentAfter place append bytes)))

end FileTree

end StackMachine
