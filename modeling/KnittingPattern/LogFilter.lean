import KnittingPattern.Decimal.Binary64
import KnittingPattern.LogFilter.Expression
import KnittingPattern.Text.Letter

/-! # Log filters

A log filter is a list of directives between commas.  A directive is a level, or the name of a part
of the program, a span in brackets with its fields in braces, or both, with a level behind an equals
sign if it has one.  Main definitions: `LogFilter.choose`, `LogFilter.isValid`. -/

namespace KnittingPattern.LogFilter

/-- The filter without any choice. -/
def usual : String := "warn"

/-- The filter that is asked for, or else the one of the environment; a blank one is the usual one.
-/
def choose (asked environment : Option String) : String :=
  match asked.or environment with
  | some s => if isBlankText s then usual else s
  | none => usual

def levelNames : List String := ["off", "error", "warn", "info", "debug", "trace"]

/-- A level is a name in any case, a number up to five, or left out. -/
def isLevel (cs : List Char) : Bool :=
  cs.isEmpty || levelNames.any (fun name => name.toList == cs.map Char.toLower) ||
    (Decimal.nat64? cs).any fun n => n ≤ 5

/-- A directive begins with a letter, a number, a hyphen, a colon or an underscore, or with a span.
-/
def startsName (c : Char) : Bool := isLetterOrNumber c || c == '-' || c == ':' || c == '_'

/-- Where the parts of a directive stand that are read further, in bytes: its fields from one place
to another, and its level from a place to the end. -/
structure Layout where
  fields : Option (Nat × Nat)
  level : Option Nat
deriving DecidableEq

/-- The places in a directive before its level. -/
inductive Place where
  | start
  | name
  | span
  | fields (start : Nat)
  | fieldsDone
  | spanDone
deriving DecidableEq

/-- The layout of a directive; there is none if it is ill-formed.  `i` counts the bytes read, and
`fields` says where the fields were. -/
def layout? (p : Place) (fields : Option (Nat × Nat)) (i : Nat) : List Char → Option Layout
  | [] => if p = .name ∨ p = .spanDone then some ⟨fields, none⟩ else none
  | c :: cs =>
    let next := i + c.utf8Size
    match p with
    | .start =>
      if c = '[' then layout? .span fields next cs
      else if startsName c then layout? .name fields next cs
      else none
    | .name =>
      if c = '=' then some ⟨fields, some next⟩
      else layout? (if c = '[' then .span else .name) fields next cs
    | .span =>
      let place := if c = ']' then .spanDone else if c = '{' then .fields next else .span
      layout? place fields next cs
    | .fields start =>
      if c = '}' then
        if i = start then none else layout? .fieldsDone (some (start, i)) next cs
      else layout? (.fields start) fields next cs
    | .fieldsDone => if c = ']' then layout? .spanDone fields next cs else none
    | .spanDone => if c = '=' then some ⟨fields, some next⟩ else none

/-- The value of a field is a number or a regular expression. -/
def isValue (cs : List Char) : Bool := (Binary64.ofChars? cs).isSome || Expression.isValid cs

/-- A field is a name, with a value behind an equals sign if it has one; what stands behind another
one does not count. -/
def isField (cs : List Char) : Bool :=
  match cs.dropWhile (· ≠ '=') with
  | [] => true
  | _ :: rest => isValue (rest.takeWhile (· ≠ '='))

/-- The characters in the first bytes of a text. -/
def takeBytes (n : Nat) : List Char → List Char
  | [] => []
  | c :: cs => if n = 0 then [] else c :: takeBytes (n - c.utf8Size) cs

/-- The characters behind the first bytes of a text. -/
def dropBytes (n : Nat) : List Char → List Char
  | [] => []
  | c :: cs => if n = 0 then c :: cs else dropBytes (n - c.utf8Size) cs

/-- Drops the blanks at both ends. -/
def trim (cs : List Char) : List Char :=
  ((cs.dropWhile isWhiteSpace).reverse.dropWhile isWhiteSpace).reverse

/-- Blanks around a directive do not count as long as it has neither fields nor a level; those are
looked for with the blanks before it left out, and taken with them. -/
def isDirective (cs : List Char) : Bool :=
  match layout? .start none 0 (trim cs) with
  | none => false
  | some l =>
    (l.fields.all fun (start, stop) => isField (takeBytes (stop - start) (dropBytes start cs))) &&
      l.level.all fun start => isLevel (dropBytes start cs)

/-- Every directive of the filter is well-formed; empty ones do not count. -/
def isValid (s : String) : Bool :=
  (s.splitOn ",").all fun d => d.isEmpty || isDirective d.toList

end KnittingPattern.LogFilter
