import StackMachine.Failure

/-!
# Detail templates

The detail of a report can be built from a template, a text in which `%d`, `%s` and `%q` stand for
arguments and `%%` for a per cent sign. A template without arguments is taken as it stands. Where
template and arguments do not fit together, the result says so in place.
-/

namespace StackMachine.Template

inductive Argument where
  | number (n : Int)
  | text (s : String)
  deriving DecidableEq, Repr

namespace Argument

/-- The argument with its type, as shown where it does not fit. -/
def described : Argument → String
  | number n => "int64=" ++ toString n
  | text s => "string=" ++ s

def quotedChar (n : Int) : String :=
  let c := if n.toNat.isValidChar && 0 ≤ n then Char.ofNat n.toNat else '�'
  let shown :=
    if c.toNat = 0x27 then "\\'" else if c = '"' then "\"" else (Letter.char c).escaped
  "'" ++ shown ++ "'"

/-- The argument in the place of the given verb. -/
def fill (verb : Char) : Argument → String
  | number n =>
    if verb = 'd' || verb = 'v' then toString n
    else if verb = 'q' then quotedChar n
    else "%!" ++ verb.toString ++ "(" ++ (number n).described ++ ")"
  | text s =>
    if verb = 's' || verb = 'v' then s
    else if verb = 'q' then quote s
    else "%!" ++ verb.toString ++ "(" ++ (text s).described ++ ")"

end Argument

/-- Lists the arguments that a template has no place for. -/
def leftOver (args : List Argument) : String :=
  if args.isEmpty then ""
  else "%!(EXTRA " ++ ", ".intercalate (args.map Argument.described) ++ ")"

/-- Fills a template; arguments that are left over are listed at the end. -/
def fillFrom : List Char → List Argument → String
  | [], args => leftOver args
  | ['%'], args => "%!(NOVERB)" ++ leftOver args
  | '%' :: '%' :: rest, args => "%" ++ fillFrom rest args
  | '%' :: verb :: rest, arg :: args => arg.fill verb ++ fillFrom rest args
  | '%' :: verb :: rest, [] => "%!" ++ verb.toString ++ "(MISSING)" ++ fillFrom rest []
  | c :: rest, args => c.toString ++ fillFrom rest args

def render (template : String) (args : List Argument) : String :=
  if args.isEmpty then template else fillFrom template.toList args

end StackMachine.Template
