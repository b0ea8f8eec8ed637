/-! # Positions in a text

A position is a line and a column.  Lines count from one; the column is that of the last character
read, so nothing is read yet at line one, column zero. -/

namespace KnittingPattern

/-- A line break is a line feed or a carriage return. -/
def isLineBreak (c : Char) : Bool := c == '\n' || c == '\r'

structure Position where
  line : Nat
  column : Nat
deriving DecidableEq

namespace Position

/-- The position before the first character. -/
def start : Position := ⟨1, 0⟩

instance : Inhabited Position := ⟨start⟩

/-- Reading a line break begins the next line; reading anything else moves one column on. -/
def advance (p : Position) (c : Char) : Position :=
  if isLineBreak c then ⟨p.line + 1, 0⟩ else ⟨p.line, p.column + 1⟩

/-- Undoes `advance`; `column` is the column before it, needed only to step back over a line break.
-/
def retreat (p : Position) (c : Char) (column : Nat) : Position :=
  if isLineBreak c then ⟨max (p.line - 1) 1, column⟩ else ⟨p.line, p.column - 1⟩

/-- Reads a run of characters; a carriage return before a line feed is one line break with it. -/
def advanceOver (p : Position) : List Char → Position
  | [] => p
  | c :: cs =>
    if c = '\r' ∧ cs.head? = some '\n' then p.advanceOver cs else (p.advance c).advanceOver cs

/-- Where the next character will sit. -/
def following (p : Position) : Position := ⟨p.line, p.column + 1⟩

/-- Written as `line:column`. -/
def text (p : Position) : String := toString p.line ++ ":" ++ toString p.column

@[simp] theorem advanceOver_nil (p : Position) : p.advanceOver [] = p := rfl

end Position
end KnittingPattern
