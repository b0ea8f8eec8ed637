import KnittingPattern.Text.CharacterClass

/-! # The atoms of an expression

The least that an expression can match: a character, an edge of a line or of a word, or a character
of a kind.  An expression knows no tables of characters.  As long as it matches characters it can
therefore ask neither for their kind nor regardless of their case; it can do so where it matches
bytes, but then it must match nothing beyond ASCII.  Main definitions: `Modes`, `Atom.read?`. -/

namespace KnittingPattern.Expression

/-- How a part of an expression is read. -/
structure Modes where
  /-- it matches in either case -/
  caseless : Bool
  /-- it matches characters, and else bytes -/
  unicode : Bool
  /-- blanks and comments in it do not count -/
  spaced : Bool
deriving DecidableEq

namespace Modes

def usual : Modes := ⟨false, true, false⟩

/-- Switches the mode that a letter stands for; the other letters change nothing here. -/
def set (m : Modes) (on : Bool) : Char → Modes
  | 'i' => { m with caseless := on }
  | 'u' => { m with unicode := on }
  | 'x' => { m with spaced := on }
  | _ => m

/-- Drops blanks and comments; a comment ends with its line. -/
def dropSpace (comment : Bool) : List Char → List Char
  | [] => []
  | c :: cs =>
    if comment then dropSpace (c ≠ '\n') cs
    else if isWhiteSpace c then dropSpace false cs
    else if c = '#' then dropSpace true cs
    else c :: cs

/-- The characters from the next one on that counts. -/
def skip (m : Modes) (cs : List Char) : List Char := if m.spaced then dropSpace false cs else cs

/-- The next characters that count, as many as asked for, and those behind them. -/
def take? (m : Modes) : Nat → List Char → Option (List Char × List Char)
  | 0, cs => some ([], cs)
  | n + 1, cs =>
    match m.skip cs with
    | [] => none
    | c :: rest => (m.take? n rest).map fun (cs, rest) => (c :: cs, rest)

end Modes

inductive Atom where
  /-- a character; `byte` if two digits write it -/
  | literal (c : Char) (byte : Bool)
  /-- any character -/
  | any
  /-- an end of a line or of the text -/
  | edge
  /-- an end of a word, or none -/
  | wordEdge
  /-- a digit, a blank or a letter, or what is none -/
  | kind (negated : Bool)
deriving DecidableEq

namespace Atom

/-- The atom that a character behind a backslash stands for.  Every sign of ASCII stands for itself;
a digit would refer to a group, which no expression can. -/
def escaped? : Char → Option Atom
  | 'd' | 's' | 'w' => some (kind false)
  | 'D' | 'S' | 'W' => some (kind true)
  | 'b' | 'B' | '<' | '>' => some wordEdge
  | 'A' | 'z' => some edge
  | 'a' => some (literal '\x07' false)
  | 't' => some (literal '\t' false)
  | 'n' => some (literal '\n' false)
  | 'v' => some (literal '\x0b' false)
  | 'f' => some (literal '\x0c' false)
  | 'r' => some (literal '\r' false)
  | c => if c.toNat < 128 && !c.isAlphanum then some (literal c false) else none

/-- A character written by the digits of its number. -/
def coded? (m : Modes) (digits : Nat) (cs : List Char) : Option (Atom × List Char) := do
  let (ds, rest) ← m.take? digits cs
  let n ← Hexadecimal.ofDigits? ds
  if n.isValidChar then some (literal (Char.ofNat n) (digits == 2), rest) else none

/-- The atom behind a backslash. -/
def readEscaped? (m : Modes) : List Char → Option (Atom × List Char)
  | [] => none
  | 'x' :: cs => coded? m 2 cs
  | 'u' :: cs => coded? m 4 cs
  | 'U' :: cs => coded? m 8 cs
  | c :: cs => (escaped? c).map fun a => (a, cs)

def read? (m : Modes) : List Char → Option (Atom × List Char)
  | [] => none
  | '\\' :: cs => readEscaped? m cs
  | '.' :: cs => some (any, cs)
  | '^' :: cs | '$' :: cs => some (edge, cs)
  | c :: cs => some (literal c false, cs)

/-- An atom between brackets, where only the backslash is a sign. -/
def readMember? (m : Modes) : List Char → Option (Atom × List Char)
  | [] => none
  | '\\' :: cs => readEscaped? m cs
  | c :: cs => some (literal c false, cs)

/-- The expression can match the atom. -/
def isAllowed (m : Modes) : Atom → Bool
  | literal c byte => if m.unicode then !m.caseless else !byte || c.toNat < 128
  | any => m.unicode
  | edge => true
  | wordEdge => !m.unicode
  | kind negated => !m.unicode && !negated

/-- The atom can be between brackets. -/
def isMember (m : Modes) : Atom → Bool
  | literal c _ => if m.unicode then !m.caseless else c.toNat < 128
  | kind negated => !m.unicode && !negated
  | _ => false

end Atom

/-- Items side by side: how many there are, and the height of the highest.  Several of them are one
level higher than each. -/
structure Items where
  count : Nat
  highest : Nat
deriving DecidableEq

namespace Items

def none : Items := ⟨0, 0⟩

def push (height : Nat) (is : Items) : Items := ⟨is.count + 1, max is.highest height⟩

def height (is : Items) : Nat := if is.count ≤ 1 then is.highest else is.highest + 1

end Items
end KnittingPattern.Expression
