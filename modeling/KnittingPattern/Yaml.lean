import KnittingPattern.Document
import KnittingPattern.Yaml.Scalar

/-! # YAML documents

A document is written in blocks: each field on a line of its own, the parts of a record two blanks
further in, the items of a list behind dashes below their key.  The names of fields and tags are
plain words.  Main definition: `Document.yaml`. -/

namespace KnittingPattern.Document

open Yaml (indentation scalar)

mutual

/-- A document behind a key or a tag that stands at an indentation, with the end of its last line.
-/
def yamlBehind (indent : Nat) : Document → List Char
  | absent => [' ', 'n', 'u', 'l', 'l', '\n']
  | flag true => [' ', 't', 'r', 'u', 'e', '\n']
  | flag false => [' ', 'f', 'a', 'l', 's', 'e', '\n']
  | natural n => ' ' :: (Nat.toDigits 10 n ++ ['\n'])
  | text s => ' ' :: scalar (indent + 2) s
  | list [] => [' ', '[', ']', '\n']
  | list (d :: ds) => '\n' :: yamlItems indent (d :: ds)
  | record [] => [' ', '{', '}', '\n']
  | record ((k, d) :: fs) =>
    '\n' :: (indentation (indent + 2) ++ k.toList ++ ':' :: yamlBehind (indent + 2) d ++
      yamlFields (indent + 2) fs)
  | tagged tag content => [' ', '!'] ++ tag.toList ++ yamlBehind indent content

/-- A document behind a dash that stands at an indentation. -/
def yamlItem (indent : Nat) : Document → List Char
  | list (d :: ds) => [' ', '-'] ++ yamlItem (indent + 2) d ++ yamlItems (indent + 2) ds
  | record ((k, d) :: fs) =>
    ' ' :: (k.toList ++ ':' :: yamlBehind (indent + 2) d ++ yamlFields (indent + 2) fs)
  | d => yamlBehind indent d

def yamlItems (indent : Nat) : List Document → List Char
  | [] => []
  | d :: ds => indentation indent ++ '-' :: yamlItem indent d ++ yamlItems indent ds

def yamlFields (indent : Nat) : List (String × Document) → List Char
  | [] => []
  | (k, d) :: fs =>
    indentation indent ++ k.toList ++ ':' :: yamlBehind indent d ++ yamlFields indent fs

end

/-- A record as a whole text. -/
def yaml : Document → String
  | record fields => String.ofList (yamlFields 0 fields)
  | d => String.ofList (yamlBehind 0 d).tail

end KnittingPattern.Document
