import KnittingPattern.Json

/-! # Documents

A document is what a tree or a session is before it is written as JSON or as YAML.  A tagged
document stands for one of several alternatives: JSON writes it as an object of one field, YAML with
a tag. -/

namespace KnittingPattern

inductive Document where
  | absent
  | flag (b : Bool)
  | natural (n : Nat)
  | text (s : String)
  | list (items : List Document)
  | record (fields : List (String × Document))
  | tagged (tag : String) (content : Document)

namespace Document

mutual

def toJson : Document → Json
  | absent => .null
  | flag b => .flag b
  | natural n => .natural n
  | text s => .text s
  | list items => .array (itemsToJson items)
  | record fields => .object (fieldsToJson fields)
  | tagged tag content => .object [(tag, content.toJson)]

def itemsToJson : List Document → List Json
  | [] => []
  | d :: ds => d.toJson :: itemsToJson ds

def fieldsToJson : List (String × Document) → List (String × Json)
  | [] => []
  | (k, d) :: fs => (k, d.toJson) :: fieldsToJson fs

end

/-- A list of texts. -/
def texts (ss : List String) : Document := list (ss.map text)

end Document
end KnittingPattern
