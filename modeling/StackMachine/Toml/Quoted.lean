import StackMachine.Toml.Number

/-!
# TOML strings

A string stands between one or three quotes of a kind. Between double quotes a backslash begins an
escape; between single quotes everything stands for itself. Strings in three quotes may span lines:
a newline right after the opening quotes is dropped, and so are a backslash at the end of a line
and all white space after it. One or two quotes may stand directly before the three that close.
-/

namespace StackMachine.Toml

def apostrophe : Char := Char.ofNat 0x27

def isNewline (c : Char) : Bool := c = '\n' || c = '\r'

/-- Blanks inside a line. -/
def isSpace (c : Char) : Bool := c = ' ' || c = '\t'

/-- The character with the code point that the hexadecimal digits spell. -/
def codePoint? (cs : List Char) : Option Char :=
  match cs.mapM (digit? 16) with
  | some ds =>
    let n := ds.foldl (fun n d => 16 * n + d) 0
    if n.isValidChar then some (Char.ofNat n) else none
  | none => none

/-- The character for which `width` digits after a letter stand, with the length of the escape. -/
def numericEscape? (width : Nat) (rest : List Char) : Option (Char × Nat) :=
  let digits := rest.take width
  if digits.length < width then none else (codePoint? digits).map fun c => (c, width + 1)

/-- The character for which the text after a backslash stands, with the length of the escape. -/
def escape? : List Char → Option (Char × Nat)
  | [] => none
  | c :: rest =>
    match c with
    | 'b' => some (Char.ofNat 0x08, 1)
    | 't' => some ('\t', 1)
    | 'n' => some ('\n', 1)
    | 'f' => some (Char.ofNat 0x0C, 1)
    | 'r' => some ('\r', 1)
    | 'e' => some (Char.ofNat 0x1B, 1)
    | '"' => some ('"', 1)
    | '\\' => some ('\\', 1)
    | 'x' => numericEscape? 2 rest
    | 'u' => numericEscape? 4 rest
    | 'U' => numericEscape? 8 rest
    | _ => none

def prepend (c : Char) (r : Option (List Char × List Char)) : Option (List Char × List Char) :=
  r.map fun (s, rest) => (c :: s, rest)

/-- The string up to a double quote on the same line, and what follows the quote. The first `taken`
characters belong to an escape that has been read. -/
def readBasicAfter : Nat → List Char → Option (List Char × List Char)
  | _, [] => none
  | taken + 1, _ :: rest => readBasicAfter taken rest
  | 0, c :: rest =>
    if c = '"' then some ([], rest)
    else if isNewline c then none
    else if c = '\\' then
      match escape? rest with
      | some (e, n) => prepend e (readBasicAfter n rest)
      | none => none
    else prepend c (readBasicAfter 0 rest)

/-- The string up to a double quote on the same line, and what follows the quote. -/
def readBasic (cs : List Char) : Option (List Char × List Char) := readBasicAfter 0 cs

/-- The string up to a single quote on the same line, and what follows the quote. -/
def readLiteral : List Char → Option (List Char × List Char)
  | [] => none
  | c :: rest =>
    if c = apostrophe then some ([], rest)
    else if isNewline c then none
    else prepend c (readLiteral rest)

/-- The string that a run of `n` quotes `q` ends, or `none` if the run is too long. -/
def closing? (q : Char) (n longest : Nat) (rest : List Char) : Option (List Char × List Char) :=
  if n ≤ longest then some (List.replicate (n - 3) q, rest) else none

/-- White space that a backslash at the end of a line takes with it. -/
def isWhite (c : Char) : Bool := isSpace c || isNewline c

/-- The string up to three double quotes. The first `taken` characters belong to an escape that has
been read. `slash` says whether an escaped backslash comes right before, after which one quote more
may stand before the closing ones. -/
def readLongBasicAfter : Nat → Bool → List Char → Option (List Char × List Char)
  | _, _, [] => none
  | taken + 1, slash, _ :: rest => readLongBasicAfter taken slash rest
  | 0, slash, c :: rest =>
    if c = '"' then
      let more := (rest.takeWhile (· = '"')).length
      if 2 ≤ more then closing? '"' (more + 1) (if slash then 6 else 5) (rest.drop more)
      else prepend c (readLongBasicAfter 0 false rest)
    else if c = '\\' then
      let white := rest.takeWhile isWhite
      if white.contains '\n' then readLongBasicAfter white.length false rest
      else
        match escape? rest with
        | some (e, n) => prepend e (readLongBasicAfter n (e = '\\' && n = 1) rest)
        | none => none
    else prepend c (readLongBasicAfter 0 false rest)

/-- The string up to three double quotes. -/
def readLongBasic (cs : List Char) : Option (List Char × List Char) :=
  readLongBasicAfter 0 false cs

/-- The string up to three single quotes. -/
def readLongLiteral : List Char → Option (List Char × List Char)
  | [] => none
  | c :: rest =>
    let more := (rest.takeWhile (· = apostrophe)).length
    if c = apostrophe ∧ 2 ≤ more then closing? apostrophe (more + 1) 5 (rest.drop more)
    else prepend c (readLongLiteral rest)

def dropNewline : List Char → List Char
  | '\n' :: rest => rest
  | '\r' :: '\n' :: rest => rest
  | cs => cs

/-- Whether the text begins with three quotes `q`. -/
def opensLong (q : Char) (cs : List Char) : Bool := cs.take 3 = [q, q, q]

/-- A string on one line, for which the text has to begin with a quote. -/
def readShortString : List Char → Option (List Char × List Char)
  | [] => none
  | c :: rest =>
    if c = '"' then readBasic rest else if c = apostrophe then readLiteral rest else none

def readString (cs : List Char) : Option (List Char × List Char) :=
  if opensLong '"' cs then readLongBasic (dropNewline (cs.drop 3))
  else if opensLong apostrophe cs then readLongLiteral (dropNewline (cs.drop 3))
  else readShortString cs

end StackMachine.Toml
