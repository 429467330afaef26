import StackMachine.Text.Case

/-!
# Paths

A path is a text of parts between slashes. The part `.` stays in a directory and `..` leaves it; an
empty part, between two slashes or at an end, stays too.
-/

namespace StackMachine.Path

def splitSlashes : List Char → List (List Char)
  | [] => [[]]
  | c :: rest =>
    if c = '/' then [] :: splitSlashes rest
    else
      match splitSlashes rest with
      | piece :: pieces => (c :: piece) :: pieces
      | [] => [[c]]

/-- The parts between the slashes; there is always one. -/
def parts (path : String) : List String := (splitSlashes path.toList).map String.ofList

def isAbsolute (path : String) : Bool := path.toList.head? = some '/'

/-- One more part of a path whose parts, last first, are already as few as can be. At the root, `..`
leads nowhere; anywhere else it is kept if there is nothing for it to take back. -/
def cleanPart (absolute : Bool) (kept : List String) (part : String) : List String :=
  if part = "" || part = "." then kept
  else if part = ".." then
    match kept with
    | [] => if absolute then [] else [".."]
    | last :: rest => if last = ".." then ".." :: kept else rest
  else part :: kept

/-- The shortest path that leads to the same place if no directory is reached twice. -/
def clean (path : String) : String :=
  let absolute := isAbsolute path
  let kept := ((parts path).foldl (cleanPart absolute) []).reverse
  if absolute then "/" ++ "/".intercalate kept
  else if kept.isEmpty then "."
  else "/".intercalate kept

/-- The path of the directory that a path leads into; `.` is the current one. -/
def directory (path : String) : String :=
  match (parts path).dropLast with
  | [] => "."
  | before => clean ("/".intercalate before ++ "/")

/-- The paths of the directories on the way to a path and the path itself, shortest first. -/
def stages (path : String) : List String :=
  let ps := parts path
  ((List.range ps.length).map fun n => "/".intercalate (ps.take (n + 1))).filter (· ≠ "")

/-- The part of the last name from its last dot on. -/
def suffix (path : String) : List Char :=
  let name := (path.toList.reverse.takeWhile (· ≠ '/')).reverse
  if name.contains '.' then
    '.' :: (name.reverse.takeWhile (· ≠ '.')).reverse
  else []

/-- Assembly sources have names that end in `.asm` or `.svm`, in any case. -/
def isAssembly (path : String) : Bool :=
  let lower := String.ofList ((suffix path).map lowerCase)
  lower = ".asm" || lower = ".svm"

end StackMachine.Path
