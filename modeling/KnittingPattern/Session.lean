import KnittingPattern.Files
import KnittingPattern.State

/-! # Sessions

A session steps through the states of a pattern.  It is at one of them, unless there is none; steps
beyond the first or the last state stay there.  The knitter changes the counters of the state the
session is at. -/

namespace KnittingPattern

inductive SessionError where
  | outOfRange (index count : Nat)
  /-- The session has no file to save to. -/
  | noSnapshotFile
  | inaccessible (path : String) (cause : FileError)
  | malformed (path : String)
deriving DecidableEq

namespace SessionError

def message : SessionError → String
  | outOfRange index count =>
    "state " ++ toString index ++ " is out of range: the pattern has " ++ toString count ++
      " states"
  | noSnapshotFile => "no snapshot file is configured"
  | inaccessible path cause => "cannot access snapshot " ++ path ++ ": " ++ cause.message
  | malformed path => "malformed snapshot " ++ path

end SessionError

structure Session where
  states : List State
  index : Nat
  /-- Where the session is saved. -/
  file : Option String
deriving DecidableEq

namespace Session

/-- A session at the first of some states, without a file. -/
def ofStates (states : List State) : Session := ⟨states, 0, none⟩

def withFile (s : Session) (path : String) : Session := ⟨s.states, s.index, some path⟩

/-- The same session at another index. -/
def moveTo (s : Session) (index : Nat) : Session := ⟨s.states, index, s.file⟩

def size (s : Session) : Nat := s.states.length

/-- The state the session is at. -/
def current? (s : Session) : Option State := s.states[s.index]?

def next (s : Session) : Session := if s.index + 1 < s.size then s.moveTo (s.index + 1) else s

def previous (s : Session) : Session := s.moveTo (s.index - 1)

def first (s : Session) : Session := s.moveTo 0

def last (s : Session) : Session := s.moveTo (s.size - 1)

def goto (s : Session) (index : Nat) : Except SessionError Session :=
  if index < s.size then .ok (s.moveTo index) else .error (.outOfRange index s.size)

/-- Changes the state the session is at. -/
def modifyCurrent (s : Session) (f : State → State) : Session :=
  ⟨s.states.modify s.index f, s.index, s.file⟩

def moveRight (s : Session) : Session := s.modifyCurrent State.moveRight

def moveLeft (s : Session) : Session := s.modifyCurrent State.moveLeft

def count (s : Session) (what : Counter) (how : Counting) : Session :=
  s.modifyCurrent (·.count what how)

/-- The same session at its last state if its index is beyond. -/
def clamp (s : Session) : Session := if s.index < s.size then s else s.last

end Session
end KnittingPattern
