import StackMachine.Toml.Value

/-!
# TOML documents

A document is what the statements of a file define: tables, in which each name stands for a value,
a table or an array of tables. A key is defined once. Tables that are only mentioned on the way to a
key are implicit, and a later statement may still define them.

Tables have numbers, and a name stands for a table by its number. The entries of an inline table are
collected in a table of their own while they are added to the document, and the two may turn out to
be one and the same.
-/

namespace StackMachine.Toml

/-- What a name stands for. -/
inductive Shape where
  | value (v : Value)
  | table (number : Nat)
  /-- An array of tables, of which the last can still get entries. -/
  | tables (last : Nat)

/-- The number of the table that further entries go to. -/
def Shape.number? : Shape → Option Nat
  | table n => some n
  | tables n => some n
  | value _ => none

/-- The names of a table, each of them once. -/
abbrev Table := List (String × Shape)

/-- What has been defined so far. Table `0` is that of the file. `listed` holds every key that a
statement names, in order, last first. -/
structure Document where
  tables : List Table := [[]]
  implicit : List Key := []
  /-- Keys of which the last value was an array. -/
  arrays : List Key := []
  listed : List Key := []

namespace Document

def isImplicit (d : Document) (key : Key) : Bool := d.implicit.contains key

def isArray (d : Document) (key : Key) : Bool := d.arrays.contains key

/-- Says that a later statement may define the key. -/
def markImplicit (d : Document) (key : Key) : Document := { d with implicit := key :: d.implicit }

def unmarkImplicit (d : Document) (key : Key) : Document :=
  { d with implicit := d.implicit.filter (· ≠ key) }

/-- Records whether the value of a name in the table `context` is an array. The empty name has no
record of its own inside a table; what is said of it counts for the table. -/
def markArray (d : Document) (context : Key) (name : String) (isArray : Bool) : Document :=
  let key := if name ≠ "" || context.isEmpty then context ++ [name] else context
  { d with arrays := if isArray then key :: d.arrays else d.arrays.filter (· ≠ key) }

/-- Adds a key to the list of those that a statement names. -/
def list (d : Document) (key : Key) : Document := { d with listed := key :: d.listed }

/-! ### Tables -/

def shape? (d : Document) (number : Nat) (name : String) : Option Shape :=
  match d.tables[number]? with
  | some names => names.lookup name
  | none => none

/-- Gives a name of a table its shape, and no other. -/
def put (d : Document) (number : Nat) (name : String) (s : Shape) : Document :=
  { d with
    tables := d.tables.modify number fun names => names.filter (·.1 ≠ name) ++ [(name, s)] }

/-- The number of the table that `grow` adds. -/
def next (d : Document) : Nat := d.tables.length

/-- Adds an empty table. -/
def grow (d : Document) : Document := { d with tables := d.tables ++ [[]] }

/-- The table that names lead to, one after the other, from the table `number`. -/
def follow (d : Document) (number : Nat) : List String → Option Nat
  | [] => some number
  | name :: rest =>
    match (d.shape? number name).bind Shape.number? with
    | some n => d.follow n rest
    | none => none

/-- The table that names lead to from the table `number`, whose key is `context`. Names without a
shape get implicit tables. -/
def reach (d : Document) (context : Key) (number : Nat) : List String → Option (Document × Nat)
  | [] => some (d, number)
  | name :: rest =>
    match d.shape? number name with
    | none =>
      ((d.markImplicit (context ++ [name])).put number name (.table d.next)).grow.reach
        (context ++ [name]) d.next rest
    | some s =>
      match s.number? with
      | some n => d.reach (context ++ [name]) n rest
      | none => none

/-- Gives a name of the table `context` a shape. A name that has one must be implicit; it keeps the
shape, unless its last value was an array. -/
def define (d : Document) (context : Key) (name : String) (s : Shape) : Option Document :=
  match d.follow 0 context with
  | none => none
  | some number =>
    let key := context ++ [name]
    match d.shape? number name with
    | none => some (d.put number name s)
    | some _ =>
      if !d.isImplicit key then none
      else if d.isArray key then some ((d.unmarkImplicit key).put number name s)
      else some (d.unmarkImplicit key)

/-- Adds an empty table to an array of tables. -/
def extend (d : Document) (number : Nat) (name : String) : Option Document :=
  match d.shape? number name with
  | none | some (.tables _) => some (d.put number name (.tables d.next)).grow
  | some _ => none

/-- Begins the table of a name in the table `context`, a further one of an array if `isElement`. -/
def openTable (d : Document) (context : Key) (name : String) (isElement : Bool) :
    Option Document :=
  match d.reach [] 0 context with
  | none => none
  | some (d, number) =>
    if isElement then d.extend number name else d.grow.define context name (.table d.next)

/-- Begins the tables of the names in front of the last of a dotted key. Those that are new stay
implicit. -/
def openDotted (d : Document) (context : Key) : List String → Option Document
  | [] => some d
  | name :: rest =>
    match (d.markImplicit (context ++ [name])).openTable context name false with
    | some d => d.openDotted (context ++ [name]) rest
    | none => none

/-- Collects the shape of an entry in the table `number`, where the names in front of the last one
have to stand for tables. -/
def collect (d : Document) (number : Nat) (s : Shape) (last : String) :
    List String → Option Document
  | [] => some (d.put number last s)
  | name :: rest =>
    match d.shape? number name with
    | none => (d.put number name (.table d.next)).grow.collect d.next s last rest
    | some (.table n) => d.collect n s last rest
    | some _ => none

/-! ### Entries -/

mutual

/-- Adds an entry of the table `context`, and says what its key stands for. -/
def addEntry (d : Document) (context : Key) : Entry → Option (Document × Shape)
  | .assign key value =>
    let inner := context ++ key.dropLast
    let name := key.getLastD ""
    match d.openDotted context key.dropLast with
    | none => none
    | some d =>
      match (d.list (inner ++ [name])).addContent inner name false value with
      | none => none
      | some (d, s) =>
        (d.define inner name s).map fun d => (d.markArray inner name value.isArray, s)

/-- Adds the entries inside the value of a name in the table `context`, and says what the value
makes of the name; `isElement` says that it is an item of an array. -/
def addContent (d : Document) (context : Key) (name : String) (isElement : Bool) :
    Value → Option (Document × Shape)
  | .array items =>
    ((d.markArray context name true).addItems context name items).map fun d =>
      (d, .value (.array items))
  | .table entries =>
    match (d.markImplicit (context ++ [name])).openTable context name isElement with
    | none => none
    | some d =>
      (d.grow.addEntries (context ++ [name]) d.next entries).map fun e => (e, .table d.next)
  | v => some (d, .value v)

def addItems (d : Document) (context : Key) (name : String) : List Value → Option Document
  | [] => some d
  | item :: rest =>
    match d.addContent context name true item with
    | some (d, _) => d.addItems context name rest
    | none => none

/-- Adds the entries of the inline table `context` and collects them in the table `number`. -/
def addEntries (d : Document) (context : Key) (number : Nat) : List Entry → Option Document
  | [] => some d
  | entry :: rest =>
    match d.addEntry context entry with
    | none => none
    | some (d, s) =>
      match d.collect number s (entry.key.getLastD "") entry.key.dropLast with
      | some d => d.addEntries context number rest
      | none => none

end

/-! ### Statements -/

/-- Adds statements, the first of which belongs to the table `context`. -/
def addStatements (d : Document) (context : Key) : List Statement → Option Document
  | [] => some d
  | .entry e :: rest =>
    match d.addEntry context e with
    | some (d, _) => d.addStatements context rest
    | none => none
  | .header key isElement :: rest =>
    match d.openTable key.dropLast (key.getLastD "") isElement with
    | some d => ((d.markArray key "" false).list key).addStatements key rest
    | none => none

/-- The document that statements define, if they fit together. -/
def ofStatements? (statements : List Statement) : Option Document :=
  addStatements {} [] statements

/-- All keys that the statements name, in order. -/
def keys (d : Document) : List Key := d.listed.reverse

/-- What the names outside all tables stand for. -/
def roots (d : Document) : Table := d.tables.headD []

end Document

end StackMachine.Toml
