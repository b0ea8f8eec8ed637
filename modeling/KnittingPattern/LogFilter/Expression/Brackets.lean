import KnittingPattern.LogFilter.Expression.Atom

/-! # Sets of characters

A set stands in brackets.  Its members are atoms, ranges, sets with a name and sets in brackets
again, and two signs between members meet, subtract or compare what stands on their sides.  Main
definition: `Brackets.read?`. -/

namespace KnittingPattern.Expression

/-- A set that has been begun. -/
structure Brackets where
  /-- the height of what stands before the last operator -/
  operand : Option Nat
  items : Items
  /-- nothing but hyphens has been read -/
  fresh : Bool
deriving DecidableEq

namespace Brackets

def start : Brackets := ⟨none, .none, true⟩

def height (b : Brackets) : Nat :=
  match b.operand with
  | none => b.items.height
  | some h => max h b.items.height + 1

def push (height : Nat) (b : Brackets) : Brackets := ⟨b.operand, b.items.push height, false⟩

/-- A hyphen before all other members is one itself. -/
def pushHyphen (b : Brackets) : Brackets := ⟨b.operand, b.items.push 0, true⟩

/-- Begins the other side of an operator. -/
def operate (b : Brackets) : Brackets := ⟨some b.height, .none, false⟩

/-- The characters behind the opening bracket and a sign that negates the set. -/
def opened? (m : Modes) (cs : List Char) : Option (List Char) :=
  match m.skip cs with
  | '^' :: rest => if m.unicode then some rest else none
  | rest => some rest

def names : List String :=
  ["alnum", "alpha", "ascii", "blank", "cntrl", "digit", "graph", "lower", "print", "punct",
    "space", "upper", "word", "xdigit"]

/-- A name between colons, read behind its opening bracket; `true` if it is negated. -/
def named? : List Char → Option (Bool × List Char)
  | ':' :: cs =>
    let (negated, cs) := match cs with
      | '^' :: rest => (true, rest)
      | rest => (false, rest)
    match cs.span (· ≠ ':') with
    | (name, ':' :: ']' :: rest) =>
      if names.contains (String.ofList name) then some (negated, rest) else none
    | _ => none
  | _ => none

/-- A set of ASCII characters, or of all others, can be a member. -/
def allowsNamed (m : Modes) (negated : Bool) : Bool := if m.unicode then !m.caseless else !negated

/-- The character behind a hyphen; a comment is looked into. -/
def peek? (m : Modes) (cs : List Char) : Option Char :=
  if m.spaced then
    match cs.dropWhile isWhiteSpace with
    | '#' :: rest => (rest.dropWhile isWhiteSpace).head?.or cs.head?
    | rest => rest.head?.or cs.head?
  else cs.head?

/-- The characters behind an atom, or behind a range from one literal to another.  A hyphen before a
bracket or a hyphen makes no range. -/
def readMember? (m : Modes) (cs : List Char) : Option (List Char) := do
  let (first, rest) ← Atom.readMember? m cs
  let alone := if first.isMember m then some rest else none
  match m.skip rest with
  | '-' :: behind =>
    if peek? m behind = some ']' ∨ peek? m behind = some '-' then alone
    else
      let (last, rest) ← Atom.readMember? m (m.skip behind)
      match first, last with
      | .literal a _, .literal b _ =>
        if first.isMember m && last.isMember m && a.toNat ≤ b.toNat then some rest else none
      | _, _ => none
  | _ => alone

/-- Reads a set up to its closing bracket; `outer` holds the sets around it.  A bracket that closes
is a member before all others.  The answer is the height of the outermost set and what stands behind
it. -/
def readFrom? (m : Modes) : Nat → List Brackets → Brackets → List Char → Option (Nat × List Char)
  | 0, _, _, _ => none
  | fuel + 1, outer, b, cs =>
    let sign (b : Brackets) (rest : List Char) :=
      if allowsNamed m false then readFrom? m fuel outer b rest else none
    let member (cs : List Char) := (readMember? m cs).bind (readFrom? m fuel outer (b.push 0))
    match m.skip cs with
    | [] => none
    | '[' :: rest =>
      match named? rest with
      | some (negated, rest) =>
        if allowsNamed m negated then readFrom? m fuel outer (b.push 0) rest else none
      | none => (opened? m rest).bind (readFrom? m fuel (b :: outer) .start)
    | ']' :: rest =>
      if b.fresh && b.items.count == 0 then sign (b.push 0) rest
      else
        match outer with
        | [] => some (b.height + 1, rest)
        | o :: os => readFrom? m fuel os (o.push (b.height + 1)) rest
    | '-' :: rest =>
      if b.fresh then sign b.pushHyphen rest
      else
        match rest with
        | '-' :: rest => readFrom? m fuel outer b.operate rest
        | _ => member ('-' :: rest)
    | '&' :: '&' :: rest => readFrom? m fuel outer b.operate rest
    | '~' :: '~' :: rest => readFrom? m fuel outer b.operate rest
    | c :: rest => member (c :: rest)

/-- Reads a set behind its opening bracket. -/
def read? (m : Modes) (cs : List Char) : Option (Nat × List Char) :=
  (opened? m cs).bind fun rest => readFrom? m (rest.length + 1) [] start rest

end Brackets
end KnittingPattern.Expression
