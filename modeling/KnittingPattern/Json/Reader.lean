import KnittingPattern.Json.Lexeme

/-! # Reading JSON

A machine takes one lexeme at a time and keeps a stack of the arrays and objects it is inside of.
Main definition: `Json.parse?`. -/

namespace KnittingPattern.Json

/-- An array or object that is not closed yet, with its parts so far, last one first; in an object
the value of the last name is being read.  A name that denotes no text is kept as `none`. -/
inductive Frame where
  | items (before : List Json)
  | member (before : List (Option String × Json)) (name : Option String)

/-- What may come next. -/
inductive Place where
  /-- A value. -/
  | value
  /-- A value or the end of an array that has just begun. -/
  | firstItem
  /-- A name or the end of an object that has just begun. -/
  | firstName
  /-- A name in an object with these fields, last one first. -/
  | name (before : List (Option String × Json))
  /-- The colon after a name. -/
  | colon (before : List (Option String × Json)) (name : Option String)
  /-- What goes on or ends after a value. -/
  | done (j : Json)

structure Reader where
  frames : List Frame
  place : Place

namespace Reader

/-- An object of these fields, last one first, if their names denote texts. -/
def close (fields : List (Option String × Json)) : Json :=
  match fields.reverse.mapM fun (name, j) => name.map fun k => (k, j) with
  | some named => .object named
  | none => .unreadable

/-- Takes the first lexeme of a value. -/
def value (frames : List Frame) : Lexeme → Option Reader
  | .leftBracket => some ⟨frames, .firstItem⟩
  | .leftBrace => some ⟨frames, .firstName⟩
  | .text (some s) => some ⟨frames, .done (.text s)⟩
  | .text none => some ⟨frames, .done .unreadable⟩
  | .atom j => some ⟨frames, .done j⟩
  | _ => none

/-- Takes one lexeme. -/
def step (r : Reader) (l : Lexeme) : Option Reader :=
  match r.place, l with
  | .value, l => value r.frames l
  | .firstItem, .rightBracket => some ⟨r.frames, .done (.array [])⟩
  | .firstItem, l => value (.items [] :: r.frames) l
  | .firstName, .rightBrace => some ⟨r.frames, .done (.object [])⟩
  | .firstName, .text name => some ⟨r.frames, .colon [] name⟩
  | .name before, .text name => some ⟨r.frames, .colon before name⟩
  | .colon before name, .colon => some ⟨.member before name :: r.frames, .value⟩
  | .done j, l =>
    match r.frames, l with
    | .items before :: frames, .comma => some ⟨.items (j :: before) :: frames, .value⟩
    | .items before :: frames, .rightBracket => some ⟨frames, .done (.array (j :: before).reverse)⟩
    | .member before name :: frames, .comma => some ⟨frames, .name ((name, j) :: before)⟩
    | .member before name :: frames, .rightBrace =>
      some ⟨frames, .done (close ((name, j) :: before))⟩
    | _, _ => none
  | _, _ => none

/-- The value that has been read, if nothing is open. -/
def result? (r : Reader) : Option Json :=
  match r.frames, r.place with
  | [], .done j => some j
  | _, _ => none

end Reader

/-- Reads a text that is one value with blanks around it. -/
def parse? (s : String) : Option Json := do
  let lexemes ← Lexeme.scan? s.toList
  let r ← lexemes.foldlM Reader.step ⟨[], .value⟩
  r.result?

end KnittingPattern.Json
