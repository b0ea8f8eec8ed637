import KnittingPattern.Json

/-! # Records in JSON

A record is read from an object, whose fields may stand in any order beside others, or from an array
that lists its parts in order.  No field may stand twice. -/

namespace KnittingPattern.Json

/-- The value of a field, if it is there; there is no answer if it stands twice. -/
def field? (fields : List (String × Json)) (name : String) : Option (Option Json) :=
  match fields.filter fun f => f.1 = name with
  | [] => some none
  | [f] => some (some f.2)
  | _ => none

/-- The parts of a record with these names; an object may leave parts out. -/
def parts? (names : List String) : Json → Option (List (Option Json))
  | .object fields => names.mapM (field? fields)
  | .array items => if items.length = names.length then some (items.map some) else none
  | _ => none

/-- All parts of a record with these names. -/
def record? (names : List String) (j : Json) : Option (List Json) :=
  (j.parts? names).bind fun parts => parts.mapM id

/-- Takes the type off a record: an array begins with it. -/
def typed? : Json → Option (Json × Json)
  | .object fields => do
    let type ← (← field? fields "type")
    return (type, .object (fields.filter fun f => f.1 ≠ "type"))
  | .array (type :: items) => some (type, .array items)
  | _ => none

/-- One of several names.  Within a typed record the number of a name may stand for it. -/
def nameAmong? (names : List String) (within : Bool) : Json → Option String
  | .text s => if s ∈ names then some s else none
  | .natural n => if within then names[n]? else none
  | _ => none

/-- An alternative: its name alone, or an object whose one field is its name and content. -/
def alternative? : Json → Option (String × Option Json)
  | .text s => some (s, none)
  | .object [(name, content)] => some (name, some content)
  | _ => none

/-- No content: nothing, or null; within a typed record an empty object too. -/
def isEmptyContent (within : Bool) : Option Json → Bool
  | none => true
  | some .null => true
  | some (.object []) => within
  | _ => false

def text? : Json → Option String
  | .text s => some s
  | _ => none

def flag? : Json → Option Bool
  | .flag b => some b
  | _ => none

/-- A natural number of 64 bits. -/
def nat64? : Json → Option Nat
  | .natural n => if n < Nat.pow 2 64 then some n else none
  | _ => none

def array? : Json → Option (List Json)
  | .array items => some items
  | _ => none

def texts? (j : Json) : Option (List String) := do (← j.array?).mapM text?

end KnittingPattern.Json
