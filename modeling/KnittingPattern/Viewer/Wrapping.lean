import KnittingPattern.Text.CharacterClass
import KnittingPattern.Text.Columns
import KnittingPattern.Text.Grapheme

/-! # Lines that fit

A line of the viewer is cut to the width of its panel, or wrapped between words: a word that does
not fit goes on the next line, a word wider than a whole line is broken, and the blanks where a line
is wrapped are dropped as far as they fit on it.  Main definitions: `Glyph.truncate`, `Glyph.wrap`.
-/

namespace KnittingPattern

/-- A grapheme with the columns it takes. -/
structure Glyph where
  symbol : String
  width : Nat
deriving DecidableEq

namespace Glyph

def ofText (s : String) : List Glyph := (Grapheme.ofText s).map fun g => ⟨g, Columns.ofText g⟩

/-- A blank at which a line can be wrapped; the blank that forbids it is none. -/
def isBlank (g : Glyph) : Bool :=
  g.symbol == "\u200b" || (isBlankText g.symbol && g.symbol != "\xa0")

/-- The columns of a row of glyphs. -/
def columns : List Glyph → Nat
  | [] => 0
  | g :: gs => g.width + columns gs

/-- The glyphs up to the first that does not fit; glyphs wider than the whole line are left out. -/
def truncate (limit : Nat) (used : Nat) : List Glyph → List Glyph
  | [] => []
  | g :: gs =>
    if limit < g.width then truncate limit used gs
    else if limit < used + g.width then []
    else g :: truncate limit (used + g.width) gs

/-- Drops glyphs from the front as long as they fit. -/
def dropFitting (limit : Nat) : List Glyph → List Glyph
  | [] => []
  | g :: gs => if limit < g.width then g :: gs else dropFitting (limit - g.width) gs

end Glyph

namespace Wrapping

/-- A line being wrapped: the lines done, the line begun, the blanks behind it and the word behind
those. -/
structure Progress where
  done : List (List Glyph)
  line : List Glyph
  blanks : List Glyph
  word : List Glyph
  afterWord : Bool

namespace Progress

def start : Progress := ⟨[], [], [], [], false⟩

/-- Puts the blanks and the word on the line if the word ends, or if the line is empty and they
would fill more than it. -/
def settle (limit : Nat) (p : Progress) (g : Glyph) : Progress :=
  if (p.afterWord && g.isBlank) ||
      (p.line.isEmpty && limit < Glyph.columns p.word + Glyph.columns p.blanks + g.width) then
    ⟨p.done, p.line ++ p.blanks ++ p.word, [], [], p.afterWord⟩
  else p

/-- The line is full, or the next glyph would be one too many. -/
def isFull (limit : Nat) (p : Progress) (g : Glyph) : Bool :=
  limit ≤ Glyph.columns p.line ||
    (0 < g.width &&
      limit ≤ Glyph.columns p.line + Glyph.columns p.blanks + Glyph.columns p.word)

/-- Ends the line. -/
def breakLine (limit : Nat) (p : Progress) : Progress :=
  ⟨p.done ++ [p.line], [], Glyph.dropFitting (limit - Glyph.columns p.line) p.blanks, p.word,
    p.afterWord⟩

/-- Adds a glyph to the blanks or to the word. -/
def push (p : Progress) (g : Glyph) : Progress :=
  if g.isBlank then ⟨p.done, p.line, p.blanks ++ [g], p.word, false⟩
  else ⟨p.done, p.line, p.blanks, p.word ++ [g], true⟩

/-- Reads one glyph; one wider than a line is left out, and so is a blank where a line was wrapped.
-/
def read (limit : Nat) (p : Progress) (g : Glyph) : Progress :=
  if limit < g.width then p
  else
    let p := p.settle limit g
    if p.isFull limit g then
      let p := p.breakLine limit
      if g.isBlank && p.blanks.isEmpty then p else p.push g
    else p.push g

/-- The lines at the end of the text: what is left is on the last one.  Blanks alone stand behind an
empty line. -/
def finish (p : Progress) : List (List Glyph) :=
  let last := p.line ++ p.blanks ++ p.word
  let done :=
    if p.line.isEmpty && p.word.isEmpty && !p.blanks.isEmpty then p.done ++ [[]] else p.done
  let lines := if last.isEmpty then done else done ++ [last]
  if lines.isEmpty then [[]] else lines

end Progress
end Wrapping

namespace Glyph

/-- Wraps a line. -/
def wrap (limit : Nat) (gs : List Glyph) : List (List Glyph) :=
  (gs.foldl (Wrapping.Progress.read limit) .start).finish

end Glyph
end KnittingPattern
