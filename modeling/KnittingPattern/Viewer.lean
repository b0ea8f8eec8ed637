import KnittingPattern.Session.Snapshot
import KnittingPattern.Viewer.Key

/-! # The viewer

The viewer shows a session under a name and changes it key by key.  Saving leaves a note that stays
until the next key that does something.  Main definition: `Viewer.handle`. -/

namespace KnittingPattern

structure Viewer where
  session : Session
  name : String
  /-- What the last action reports. -/
  status : Option String
  quitting : Bool
deriving DecidableEq

namespace Viewer

def ofSession (session : Session) (name : String) : Viewer := ⟨session, name, none, false⟩

/-- The number of the state shown, from one on, and the number of states; both are zero if there is
none. -/
def position (v : Viewer) : Nat × Nat :=
  if v.session.size = 0 then (0, 0) else (v.session.index + 1, v.session.size)

/-- The note on a save. -/
def report (s : Session) : Except SessionError Unit → String
  | .ok _ => "saved " ++ s.file.getD ""
  | .error e => "save failed: " ++ e.message

/-- What an action makes of a session; saving and quitting leave it as it is. -/
def step : Action → Session → Session
  | .next, s => s.next
  | .previous, s => s.previous
  | .first, s => s.first
  | .last, s => s.last
  | .phraseRight, s => s.moveRight
  | .phraseLeft, s => s.moveLeft
  | .count what how, s => s.count what how
  | .save, s => s
  | .quit, s => s

variable {m : Type → Type} [Monad m]

/-- Does an action; the note on the action before is gone. -/
def apply (files : FileAccess m) (v : Viewer) (a : Action) : m Viewer := do
  let status ← match a with
    | .save => do pure (some (report v.session (← v.session.save files)))
    | _ => pure none
  return ⟨step a v.session, v.name, status, v.quitting || a == .quit⟩

/-- Handles a key; a key that does nothing changes nothing. -/
def handle (files : FileAccess m) (v : Viewer) (k : Key) : m Viewer :=
  match Action.ofKey? k with
  | some a => v.apply files a
  | none => pure v

end Viewer
end KnittingPattern
