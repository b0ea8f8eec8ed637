import KnittingPattern.Viewer
import KnittingPattern.Viewer.Span
import KnittingPattern.Viewer.Terminal

/-! # The screen

From top to bottom stand the title, a panel with the descriptions, one with the row and its
arguments, one with the counters, and the status.  The panel with the descriptions takes all the
rows that the others leave.  Main definitions: `Screen.draw`, `Screen.display`. -/

namespace KnittingPattern.Screen

/-- The least width that the screen can be drawn in. -/
def minWidth : Nat := 40

/-- The rows of the panel with the row, of the panel with the counters, and of all but the
descriptions. -/
def rowPanelHeight : Nat := 6

def counterPanelHeight : Nat := 3

def fixedHeight : Nat := 1 + rowPanelHeight + counterPanelHeight + 1

def help : String := "j/k step  h/l phrase  +/-/0 stitches  ]/[/) rows  w save  q quit"

/-- A line without the carriage return at its end. -/
def dropReturn (s : String) : String :=
  if s.endsWith "\r" then String.ofList s.toList.dropLast else s

/-- The lines of a text; a carriage return before a line feed belongs to the break. -/
def linesOf (s : String) : List String :=
  let lines := s.splitOn "\n"
  let last := lines.getLastD ""
  lines.dropLast.map dropReturn ++ if last = "" then [] else [last]

/-- A list cut or filled up to a length. -/
def pad {α : Type} (length : Nat) (blank : α) (xs : List α) : List α :=
  xs.take length ++ List.replicate (length - xs.length) blank

/-- The cells of a row of glyphs. -/
def row (width : Nat) (gs : List Glyph) : List Glyph := pad width .blank (Glyph.cells gs)

/-- The first line of a text, cut to a width. -/
def oneLine (width : Nat) (s : String) : List Glyph :=
  row width (Glyph.truncate width 0 (Glyph.ofText ((linesOf s).headD "")))

def bar (n : Nat) : String := String.ofList (List.replicate n '─')

/-- A panel with a border, its title in the border. -/
def panel (width height : Nat) (title : String) (rows : List (List Glyph)) : List (List Glyph) :=
  let inner := width - 2
  let border : Glyph := ⟨"│", 1⟩
  let side (gs : List Glyph) : List Glyph := border :: (row inner gs ++ [border])
  oneLine width ("┌" ++ title ++ bar (inner - title.length) ++ "┐") ::
    ((pad (height - 2) [] rows).map side ++ [oneLine width ("└" ++ bar inner ++ "┘")])

/-- A description under its label, unless it is blank. -/
def noteLines (label text : String) : List String :=
  if isBlankText text then [] else label :: linesOf (trimEnd text)

def descriptionLines (d : Descriptions) : List String :=
  noteLines "Block" d.block ++ noteLines "Group" d.group ++ noteLines "Row" d.row

/-- The parts of the row as shown and, below a blank line, those of its arguments. -/
def rowLines (s : State) : List (List String) :=
  (Span.ofState s).map Span.text ::
    (if s.args.isEmpty then [] else [[], ["Args: ", ", ".intercalate s.args]])

def counterLine (s : State) : String :=
  "Group " ++ Repeat.note s.groupRepeat ++ "  Row " ++ Repeat.note s.rowRepeat ++
    "  Stitches " ++ toString s.counters.stitch ++ "  Rows " ++ toString s.counters.row

/-- Lines wrapped into a panel, each made of parts that share no grapheme; a line feed in a line is
not shown. -/
def wrapped (width : Nat) (lines : List (List String)) : List (List Glyph) :=
  lines.flatMap fun parts =>
    Glyph.wrap (width - 2) ((parts.flatMap Glyph.ofText).filter fun g => g.symbol ≠ "\n")

/-- A line cut into a panel. -/
def cut (width : Nat) (line : String) : List (List Glyph) :=
  [Glyph.truncate (width - 2) 0 (Glyph.ofText line)]

def title (v : Viewer) : String :=
  "knit:: " ++ v.name ++ "  [" ++ toString v.position.1 ++ "/" ++ toString v.position.2 ++ "]"

/-- The three panels, or one that says that there is nothing to show. -/
def panels (width height : Nat) (v : Viewer) : List (List Glyph) :=
  match v.session.current? with
  | some s =>
    panel width height "Notes" (wrapped width ((descriptionLines s.desc).map fun l => [l])) ++
      panel width rowPanelHeight "Row" (wrapped width (rowLines s)) ++
      panel width counterPanelHeight "" (cut width (counterLine s))
  | none =>
    panel width height "" (cut width "The pattern has no rows.") ++
      List.replicate (rowPanelHeight + counterPanelHeight) (row width [])

/-- The cells of the screen. -/
def draw (width height : Nat) (v : Viewer) : List (List Glyph) :=
  if width < minWidth then
    pad height (row width []) [oneLine width ("Terminal too narrow: " ++ toString width ++ " < " ++
      toString minWidth ++ " chars")]
  else
    oneLine width (title v) :: (panels width (height - fixedHeight) v ++
      [oneLine width (v.status.getD help)])

/-- Draws the viewer on a terminal. -/
def display (t : Terminal) (v : Viewer) : Terminal := t.write (draw t.width t.height v)

end KnittingPattern.Screen
