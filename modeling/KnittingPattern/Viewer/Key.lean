import KnittingPattern.State

/-! # Keys

What the keys of the viewer do.  With the control key down only the letter that interrupts does
anything; the other modifiers do not count. -/

namespace KnittingPattern

inductive KeyCode where
  | char (c : Char)
  | up
  | down
  | left
  | right
  | enter
  | escape
deriving DecidableEq

/-- A key that is pressed, with the modifiers held down. -/
structure Key where
  code : KeyCode
  control : Bool
  alt : Bool
  shift : Bool
deriving DecidableEq

/-- What the knitter can do in the viewer. -/
inductive Action where
  | next
  | previous
  | first
  | last
  | phraseRight
  | phraseLeft
  | count (what : Counter) (how : Counting)
  | save
  | quit
deriving DecidableEq

namespace Action

/-- What a key does without the control key. -/
def ofCode? : KeyCode → Option Action
  | .down => some next
  | .up => some previous
  | .right => some phraseRight
  | .left => some phraseLeft
  | .char 'j' => some next
  | .char ' ' => some next
  | .char 'k' => some previous
  | .char 'l' => some phraseRight
  | .char 'h' => some phraseLeft
  | .char '+' => some (count .stitch .increment)
  | .char '-' => some (count .stitch .decrement)
  | .char '0' => some (count .stitch .reset)
  | .char ']' => some (count .row .increment)
  | .char '[' => some (count .row .decrement)
  | .char ')' => some (count .row .reset)
  | .char 'g' => some first
  | .char 'G' => some last
  | .char 'w' => some save
  | .char 'q' => some quit
  | _ => none

def ofKey? (k : Key) : Option Action :=
  if k.control then if k.code = .char 'c' then some quit else none else ofCode? k.code

end Action
end KnittingPattern
