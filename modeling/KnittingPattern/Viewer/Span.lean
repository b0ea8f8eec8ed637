import KnittingPattern.State

/-! # Styled rows

The viewer shows the row of a state as spans of one style each; the span under the cursor stands
out.  Blanks and commas are spans of their own, and where they go is decided here by the number of
the fragment, not by `Row.comma`. -/

namespace KnittingPattern

inductive Colour where
  | black
  | yellow
deriving DecidableEq

structure Style where
  foreground : Option Colour
  background : Option Colour
  bold : Bool
deriving DecidableEq

namespace Style

/-- Text as the terminal shows it. -/
def normal : Style := ⟨none, none, false⟩

/-- The stitch under the cursor. -/
def highlight : Style := ⟨some .black, some .yellow, true⟩

end Style

structure Span where
  text : String
  style : Style
deriving DecidableEq

namespace Span

/-- A comma is shown behind the fragment of number `i` of a row, unless it opens a part of the row,
the next one closes a part, or there is no next one. -/
def hasComma (row : List String) (i : Nat) (fragment : String) : Bool :=
  let last := i + 1 == row.length
  let beforeClosing := row[i + 1]?.any fun next => next.toList.head? == some '}'
  fragment != "\x7b" && !beforeClosing && !last

/-- A fragment of a row, with the blank before it and the comma behind it. -/
def ofFragment (row : List String) (cursor i : Nat) (fragment : String) : List Span :=
  (if 0 < i then [⟨" ", .normal⟩] else []) ++
    ⟨fragment, if i = cursor then .highlight else .normal⟩ ::
    if hasComma row i fragment then [⟨",", .normal⟩] else []

/-- A row with the cursor on one of its fragments. -/
def ofRow (row : List String) (cursor : Nat) : List Span :=
  row.zipIdx.flatMap fun (fragment, i) => ofFragment row cursor i fragment

/-- The row of a state with its cursor. -/
def ofState (s : State) : List Span := ofRow s.row s.counters.phrase

end Span
end KnittingPattern
