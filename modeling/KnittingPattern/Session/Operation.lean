import KnittingPattern.Session

/-! # Operations on sessions

What can be asked of a session, one operation after the other.  A session answers with the state it
is at then, or says why it cannot go there.  Main definitions: `Session.operate`, `Session.run`. -/

namespace KnittingPattern

inductive Operation where
  | next
  | previous
  | first
  | last
  | goto (index : Nat)
  | moveLeft
  | moveRight
  | count (what : Counter) (how : Counting)
deriving DecidableEq

/-- What a session answers: a state, if it has one to be at. -/
abbrev Answer := Except SessionError (Option State)

namespace Session

/-- The answer of a session that has done what it was asked. -/
def done (s : Session) : Answer × Session := (.ok s.current?, s)

/-- Does an operation.  A session that cannot go to a state stays as it is. -/
def operate (s : Session) : Operation → Answer × Session
  | .next => s.next.done
  | .previous => s.previous.done
  | .first => s.first.done
  | .last => s.last.done
  | .goto index =>
    match s.goto index with
    | .ok s => s.done
    | .error e => (.error e, s)
  | .moveLeft => s.moveLeft.done
  | .moveRight => s.moveRight.done
  | .count what how => (s.count what how).done

/-- Does operations in their order. -/
def run (s : Session) : List Operation → List Answer × Session
  | [] => ([], s)
  | op :: ops =>
    let (answer, s) := s.operate op
    let (answers, s) := s.run ops
    (answer :: answers, s)

end Session
end KnittingPattern
