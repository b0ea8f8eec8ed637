import KnittingPattern.Row

/-! # States

A state is one step of knitting: a row with its descriptions, the rounds of the repeats it is in,
two counters for the knitter, and a cursor on one stitch of the row.  The cursor moves from stitch
to stitch and never rests on a brace, unless the row has no stitch at all.  Counters and cursor are
numbers of 64 bits, which begin again at zero behind the greatest one. -/

namespace KnittingPattern

/-- The descriptions in effect where a row stands. -/
structure Descriptions where
  block : String
  group : String
  row : String
deriving DecidableEq

namespace Descriptions

def none : Descriptions := ⟨"", "", ""⟩

end Descriptions

/-- One round of several. -/
structure Repeat where
  current : Nat
  max : Nat
deriving DecidableEq

namespace Repeat

def text (r : Repeat) : String := toString r.current ++ "/" ++ toString r.max

/-- The round, or a dash outside all repeats. -/
def note (r : Option Repeat) : String := (r.map text).getD "-"

end Repeat

/-- The knitter's counters and the cursor, which is the number of a fragment. -/
structure Counters where
  stitch : Nat
  row : Nat
  phrase : Nat
deriving DecidableEq

/-- The counters that the knitter changes. -/
inductive Counter where
  | stitch
  | row
deriving DecidableEq

/-- The number of 64 bits behind another one. -/
def Counters.succ64 (n : Nat) : Nat := (n + 1) % Nat.pow 2 64

/-- Counters stop at zero when they are counted down, and begin again there when they are counted up
beyond the greatest number. -/
inductive Counting where
  | increment
  | decrement
  | reset
deriving DecidableEq

namespace Counting

def apply : Counting → Nat → Nat
  | increment, n => Counters.succ64 n
  | decrement, n => n - 1
  | reset, _ => 0

end Counting

namespace Counters

def get (c : Counters) : Counter → Nat
  | .stitch => c.stitch
  | .row => c.row

def count (c : Counters) (what : Counter) (how : Counting) : Counters :=
  match what with
  | .stitch => ⟨how.apply c.stitch, c.row, c.phrase⟩
  | .row => ⟨c.stitch, how.apply c.row, c.phrase⟩

def movePhrase (c : Counters) (phrase : Nat) : Counters := ⟨c.stitch, c.row, phrase⟩

end Counters

structure State where
  desc : Descriptions
  groupRepeat : Option Repeat
  rowRepeat : Option Repeat
  counters : Counters
  row : List String
  args : List String
  /-- The row on one line. -/
  historyRow : String
deriving DecidableEq

namespace Row

/-- A row has a stitch at an index. -/
def isStitchAt (row : List String) (i : Nat) : Bool := row[i]?.any Fragment.isStitch

/-- The least index from `i` on that has a stitch. -/
def stitchFrom? (row : List String) (i : Nat) : Option Nat :=
  (List.range' i (row.length - i)).find? (isStitchAt row)

/-- The greatest index before `i` that has a stitch. -/
def stitchBefore? (row : List String) (i : Nat) : Option Nat :=
  (List.range (min i row.length)).reverse.find? (isStitchAt row)

end Row

namespace State

/-- A row that has not been begun; the cursor is on its first stitch. -/
def ofRow (desc : Descriptions) (row args : List String) : State :=
  ⟨desc, none, none, ⟨0, 0, (Row.stitchFrom? row 0).getD 0⟩, row, args, Row.text row⟩

def withCounters (s : State) (c : Counters) : State :=
  ⟨s.desc, s.groupRepeat, s.rowRepeat, c, s.row, s.args, s.historyRow⟩

/-- The number behind the cursor.  Rows have fewer than `2 ^ 64` fragments, so only a cursor beyond
its row can be at the greatest number. -/
def behindCursor (s : State) : Nat :=
  if s.counters.phrase < s.row.length then s.counters.phrase + 1
  else Counters.succ64 s.counters.phrase

/-- Moves the cursor to the next stitch, if there is one. -/
def moveRight (s : State) : State :=
  s.withCounters (s.counters.movePhrase
    ((Row.stitchFrom? s.row s.behindCursor).getD s.counters.phrase))

/-- Moves the cursor to the stitch before, if there is one. -/
def moveLeft (s : State) : State :=
  s.withCounters (s.counters.movePhrase
    ((Row.stitchBefore? s.row s.counters.phrase).getD s.counters.phrase))

def count (s : State) (what : Counter) (how : Counting) : State :=
  s.withCounters (s.counters.count what how)

/-- A state as a text of several lines. -/
def text (s : State) : String :=
  "----------------------\n" ++ "Block desc:\n" ++ s.desc.block ++ "\n" ++
    "Group desc (" ++ Repeat.note s.groupRepeat ++ "):\n" ++ s.desc.group ++ "\n" ++
    "Row desc (" ++ Repeat.note s.rowRepeat ++ "):\n" ++ s.desc.row ++ "\n" ++
    "Row:\n" ++ s.historyRow ++ "\n" ++ "Args:\n" ++ ", ".intercalate s.args

end State
end KnittingPattern
