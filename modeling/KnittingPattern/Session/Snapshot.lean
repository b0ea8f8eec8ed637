import KnittingPattern.Document
import KnittingPattern.Json.Reader
import KnittingPattern.Json.Record
import KnittingPattern.Session

/-! # Snapshots

A snapshot is a session as JSON: its states and its index, but not its file.  A session is saved to
its file and loaded from a file, which then is its own. -/

namespace KnittingPattern

namespace Descriptions

def document (d : Descriptions) : Document :=
  .record [("block", .text d.block), ("group", .text d.group), ("row", .text d.row)]

def ofJson? (j : Json) : Option Descriptions := do
  match ← j.record? ["block", "group", "row"] with
  | [block, group, row] => return ⟨← block.text?, ← group.text?, ← row.text?⟩
  | _ => failure

end Descriptions

namespace Repeat

def document (r : Repeat) : Document :=
  .record [("current", .natural r.current), ("max", .natural r.max)]

/-- The round of a state, which need not have one. -/
def optionDocument (r : Option Repeat) : Document := (r.map document).getD .absent

def ofJson? (j : Json) : Option Repeat := do
  match ← j.record? ["current", "max"] with
  | [current, max] => return ⟨← current.nat64?, ← max.nat64?⟩
  | _ => failure

/-- A part that is null or left out says that there is no round. -/
def optionOfJson? : Option Json → Option (Option Repeat)
  | none => some none
  | some .null => some none
  | some j => (ofJson? j).map some

end Repeat

namespace Counters

def document (c : Counters) : Document :=
  .record [("stitch", .natural c.stitch), ("row", .natural c.row), ("phrase", .natural c.phrase)]

def ofJson? (j : Json) : Option Counters := do
  match ← j.record? ["stitch", "row", "phrase"] with
  | [stitch, row, phrase] => return ⟨← stitch.nat64?, ← row.nat64?, ← phrase.nat64?⟩
  | _ => failure

end Counters

namespace State

def document (s : State) : Document :=
  .record [("desc", s.desc.document), ("group_repeat", Repeat.optionDocument s.groupRepeat),
    ("row_repeat", Repeat.optionDocument s.rowRepeat), ("counters", s.counters.document),
    ("row", .texts s.row), ("args", .texts s.args), ("history_row", .text s.historyRow)]

def ofJson? (j : Json) : Option State := do
  match ← j.parts?
    ["desc", "group_repeat", "row_repeat", "counters", "row", "args", "history_row"] with
  | [some desc, groupRepeat, rowRepeat, some counters, some row, some args, some historyRow] =>
    return ⟨← Descriptions.ofJson? desc, ← Repeat.optionOfJson? groupRepeat,
      ← Repeat.optionOfJson? rowRepeat, ← Counters.ofJson? counters, ← row.texts?, ← args.texts?,
      ← historyRow.text?⟩
  | _ => failure

end State

namespace Session

def document (s : Session) : Document :=
  .record [("states", .list (s.states.map State.document)), ("index", .natural s.index)]

/-- A session as a text. -/
def snapshot (s : Session) : String := s.document.toJson.pretty

def ofJson? (j : Json) : Option Session := do
  match ← j.record? ["states", "index"] with
  | [states, index] =>
    return ⟨← (← states.array?).mapM State.ofJson?, ← index.nat64?, none⟩
  | _ => failure

/-- Reads a session from a text; an index beyond the states becomes that of the last one. -/
def ofSnapshot? (text : String) : Option Session := ((Json.parse? text).bind ofJson?).map clamp

variable {m : Type → Type} [Monad m]

/-- Writes a session to its file. -/
def save (files : FileAccess m) (s : Session) : m (Except SessionError Unit) := do
  match s.file with
  | none => return .error .noSnapshotFile
  | some path => return (← files.write path s.snapshot).mapError (.inaccessible path)

/-- Reads a session from a file. -/
def load (files : FileAccess m) (path : String) : m (Except SessionError Session) := do
  match ← files.read path with
  | .error e => return .error (.inaccessible path e)
  | .ok text =>
    match ofSnapshot? text with
    | none => return .error (.malformed path)
    | some s => return .ok (s.withFile path)

end Session
end KnittingPattern
