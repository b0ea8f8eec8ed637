import KnittingPattern.Viewer.Wrapping

/-! # The terminal

A terminal holds rows of cells.  A glyph is written into the first of the cells it takes, and
nothing is written into the cell behind a glyph of several columns, since the glyph covers it.  That
cell goes on to hold what it held before, so that what a terminal holds depends on all that has been
drawn on it.  Main definitions: `Glyph.cells`, `Terminal.write`, `Terminal.text`. -/

namespace KnittingPattern

namespace Glyph

def blank : Glyph := ⟨" ", 1⟩

/-- The cells that glyphs take: each stands in its first one, and the others are blank. -/
def cells (gs : List Glyph) : List Glyph :=
  gs.flatMap fun g => if g.width = 0 then [] else g :: List.replicate (g.width - 1) blank

end Glyph

/-- A terminal with what its cells hold. -/
structure Terminal where
  width : Nat
  rows : List (List Glyph)
deriving DecidableEq

namespace Terminal

/-- A terminal on which nothing has been drawn. -/
def start (width height : Nat) : Terminal :=
  ⟨width, List.replicate height (List.replicate width .blank)⟩

def height (t : Terminal) : Nat := t.rows.length

/-- Writes cells over old ones; `covered` says that the first one is behind a glyph of several
columns. -/
def writeRow (covered : Bool) : List Glyph → List Glyph → List Glyph
  | old :: olds, new :: news =>
    (if covered then old else new) :: writeRow (1 < new.width) olds news
  | olds, _ => olds

/-- Writes every row. -/
def write (t : Terminal) (rows : List (List Glyph)) : Terminal :=
  ⟨t.width, List.zipWith (writeRow false) t.rows rows⟩

/-- The rows as text, without the blanks at their ends. -/
def text (t : Terminal) : List String :=
  t.rows.map fun cells => trimEnd (String.join (cells.map Glyph.symbol))

end Terminal
end KnittingPattern
