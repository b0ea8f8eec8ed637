import KnittingPattern.LogFilter.Expression.Brackets
import KnittingPattern.Text.Letter

/-! # Regular expressions

A regular expression is a row of atoms, sets, groups and repetitions, with bars between branches.
The modes can be switched for the rest of a group, or for a group of their own.  No two groups have
one name, and what is nested in each other must not be too high.  A count of repetitions stands in
braces and so in no field of a filter.  Main definition: `Expression.isValid`. -/

namespace KnittingPattern.Expression

/-- A group that has been begun, or the whole expression. -/
structure Group where
  modes : Modes
  /-- the height of the highest branch before the last bar -/
  branches : Option Nat
  items : Items
  /-- the height of the last item, if it can be repeated -/
  last : Option Nat
deriving DecidableEq

namespace Group

def start (m : Modes) : Group := ⟨m, none, .none, none⟩

def height (g : Group) : Nat :=
  match g.branches with
  | none => g.items.height
  | some h => max h g.items.height + 1

def push (height : Nat) (g : Group) : Group :=
  ⟨g.modes, g.branches, g.items.push height, some height⟩

/-- Switches the modes for the rest of the group; that cannot be repeated. -/
def switch (m : Modes) (g : Group) : Group := ⟨m, g.branches, g.items.push 0, none⟩

/-- Begins another branch. -/
def branch (g : Group) : Group :=
  ⟨g.modes, some (max (g.branches.getD 0) g.items.height), .none, none⟩

/-- Repeats the last item. -/
def repeat? (g : Group) : Option Group :=
  g.last.map fun h =>
    ⟨g.modes, g.branches, ⟨g.items.count, max g.items.highest (h + 1)⟩, some (h + 1)⟩

end Group

/-- The characters of a name. -/
def isName (cs : List Char) : Bool :=
  match cs with
  | [] => false
  | c :: cs =>
    (c == '_' || isLetter c) && cs.all fun c =>
      c == '_' || c == '.' || c == '[' || c == ']' || isLetterOrNumber c

/-- What the letters of modes do: switch the modes for the rest of the group or begin a group. -/
inductive Switched where
  | rest (m : Modes)
  | group (m : Modes)

/-- The letters of modes, and the hyphen, which turns off the modes behind it. -/
def modeLetters : List Char := ['i', 'm', 's', 'U', 'u', 'R', 'x', '-']

/-- Reads letters of modes up to the end of the group or to its start; each stands there once. -/
def switched? (m : Modes) (seen : List Char) : List Char → Option (Switched × List Char)
  | [] => none
  | c :: cs =>
    if c = ':' then if seen.head? = some '-' then none else some (.group m, cs)
    else if c = ')' then
      if seen = [] ∨ seen.head? = some '-' then none else some (.rest m, cs)
    else if seen.contains c || !modeLetters.contains c then none
    else switched? (m.set (!seen.contains '-') c) (c :: seen) cs

/-- An expression being read: the names of its groups, and the group begun with those around it. -/
structure Reading where
  names : List (List Char)
  group : Group
  outer : List Group

namespace Reading

def start : Reading := ⟨[], .start .usual, []⟩

/-- Begins a group. -/
def opened (m : Modes) (r : Reading) : Reading := ⟨r.names, .start m, r.group :: r.outer⟩

/-- Begins a group with a name, which ends with an angle. -/
def named? (r : Reading) (cs : List Char) : Option (Reading × List Char) :=
  match cs.span (· ≠ '>') with
  | (name, _ :: rest) =>
    if isName name && !r.names.contains name then
      some ({ r.opened r.group.modes with names := name :: r.names }, rest)
    else none
  | _ => none

/-- Reads what stands behind an opening parenthesis. -/
def open? (r : Reading) (cs : List Char) : Option (Reading × List Char) :=
  match r.group.modes.skip cs with
  | '?' :: 'P' :: '<' :: rest => r.named? rest
  | '?' :: '<' :: rest => r.named? rest
  | '?' :: rest =>
    (switched? r.group.modes [] rest).map fun
      | (.rest m, rest) => (⟨r.names, r.group.switch m, r.outer⟩, rest)
      | (.group m, rest) => (r.opened m, rest)
  | rest => some (r.opened r.group.modes, rest)

/-- Ends a group. -/
def close? (r : Reading) : Option Reading :=
  match r.outer with
  | [] => none
  | g :: gs => some ⟨r.names, g.push (r.group.height + 1), gs⟩

/-- Repeats the last item; a question mark behind the sign makes that lazy. -/
def repeat? (r : Reading) (cs : List Char) : Option (Reading × List Char) :=
  r.group.repeat?.map fun g =>
    (⟨r.names, g, r.outer⟩,
      match cs with
      | '?' :: rest => rest
      | rest => rest)

/-- Reads an item. -/
def item? (r : Reading) (cs : List Char) : Option (Reading × List Char) := do
  let (height, rest) ← match cs with
    | '[' :: rest => Brackets.read? r.group.modes rest
    | _ => do
      let (a, rest) ← Atom.read? r.group.modes cs
      if a.isAllowed r.group.modes then some (0, rest) else none
  return (⟨r.names, r.group.push height, r.outer⟩, rest)

/-- Reads what begins with a character. -/
def step? (r : Reading) (c : Char) (cs : List Char) : Option (Reading × List Char) :=
  match c with
  | '(' => r.open? cs
  | ')' => r.close?.map fun r => (r, cs)
  | '|' => some (⟨r.names, r.group.branch, r.outer⟩, cs)
  | '?' | '*' | '+' => r.repeat? cs
  | '{' => none
  | _ => r.item? (c :: cs)

/-- Reads an expression to its end. -/
def readFrom? : Nat → Reading → List Char → Option Reading
  | 0, _, _ => none
  | fuel + 1, r, cs =>
    match r.group.modes.skip cs with
    | [] => some r
    | c :: cs => (r.step? c cs).bind fun (r, rest) => readFrom? fuel r rest

end Reading

def maxHeight : Nat := 250

/-- The text is a regular expression: every group ends, and it is not too high. -/
def isValid (cs : List Char) : Bool :=
  match Reading.readFrom? (cs.length + 1) .start cs with
  | some r => r.outer.isEmpty && r.group.height ≤ maxHeight
  | none => false

end KnittingPattern.Expression
