/-! # JSON values

The fields of an object keep their order and may repeat a name.  A number written as a natural is
one; any other number is kept as it is written.  `Json.write` prints a value on one line or over
several; `Json.depth` counts how deep arrays and objects nest. -/

namespace KnittingPattern

inductive Json where
  | null
  | flag (b : Bool)
  | natural (n : Nat)
  | number (literal : String)
  | text (s : String)
  | array (items : List Json)
  | object (fields : List (String × Json))
  /-- A value that is well formed and denotes nothing: a text with half of a surrogate pair, an
  object with such a name, or a number beyond every binary number. -/
  | unreadable

namespace Json

instance : Inhabited Json := ⟨null⟩

mutual

/-- How deep arrays and objects nest. -/
def depth : Json → Nat
  | array items => depthItems items + 1
  | object fields => depthFields fields + 1
  | _ => 0

def depthItems : List Json → Nat
  | [] => 0
  | j :: js => max j.depth (depthItems js)

def depthFields : List (String × Json) → Nat
  | [] => 0
  | (_, j) :: fs => max j.depth (depthFields fs)

end

mutual

/-- Every part of the value denotes something. -/
def readable : Json → Bool
  | unreadable => false
  | array items => readableItems items
  | object fields => readableFields fields
  | _ => true

def readableItems : List Json → Bool
  | [] => true
  | j :: js => j.readable && readableItems js

def readableFields : List (String × Json) → Bool
  | [] => true
  | (_, j) :: fs => j.readable && readableFields fs

end

/-- The digit of a number below sixteen. -/
def hexDigit (n : Nat) : Char := Nat.digitChar n

/-- A quote and a backslash are written after a backslash, control characters by their letter or
number, all else as it is. -/
def escape (c : Char) : List Char :=
  if c = '"' then ['\\', '"']
  else if c = '\\' then ['\\', '\\']
  else if c = '\x08' then ['\\', 'b']
  else if c = '\t' then ['\\', 't']
  else if c = '\n' then ['\\', 'n']
  else if c = '\x0c' then ['\\', 'f']
  else if c = '\r' then ['\\', 'r']
  else if c.toNat < 32 then ['\\', 'u', '0', '0', hexDigit (c.toNat / 16), hexDigit (c.toNat % 16)]
  else [c]

/-- A text between quotes. -/
def quote (s : String) : List Char := '"' :: (s.toList.flatMap escape ++ ['"'])

/-- Where a printed value breaks lines. -/
structure Layout where
  /-- What stands before a part at this depth, and before the bracket that closes one. -/
  newline : Nat → List Char
  /-- What stands between a name and its value. -/
  colon : List Char

/-- Everything on one line. -/
def compact : Layout := ⟨fun _ => [], [':']⟩

/-- Every part on a line of its own, two blanks further in. -/
def indented : Layout := ⟨fun depth => '\n' :: List.replicate (2 * depth) ' ', [':', ' ']⟩

mutual

/-- Prints a value that stands at a depth, before a text. -/
def write (l : Layout) (depth : Nat) (j : Json) (rest : List Char) : List Char :=
  match j with
  | null => 'n' :: 'u' :: 'l' :: 'l' :: rest
  | flag true => 't' :: 'r' :: 'u' :: 'e' :: rest
  | flag false => 'f' :: 'a' :: 'l' :: 's' :: 'e' :: rest
  | natural n => Nat.toDigits 10 n ++ rest
  | number literal => literal.toList ++ rest
  | text s => quote s ++ rest
  | array [] => '[' :: ']' :: rest
  | array (j :: js) =>
    '[' :: (l.newline (depth + 1) ++ write l (depth + 1) j (writeItems l (depth + 1) js
      (l.newline depth ++ ']' :: rest)))
  | object [] => '{' :: '}' :: rest
  | object ((k, j) :: fs) =>
    '{' :: (l.newline (depth + 1) ++ (quote k ++ (l.colon ++ write l (depth + 1) j
      (writeFields l (depth + 1) fs (l.newline depth ++ '}' :: rest)))))
  | unreadable => 'n' :: 'u' :: 'l' :: 'l' :: rest

/-- Prints the items after the first one. -/
def writeItems (l : Layout) (depth : Nat) (js : List Json) (rest : List Char) : List Char :=
  match js with
  | [] => rest
  | j :: js => ',' :: (l.newline depth ++ write l depth j (writeItems l depth js rest))

/-- Prints the fields after the first one. -/
def writeFields (l : Layout) (depth : Nat) (fs : List (String × Json)) (rest : List Char) :
    List Char :=
  match fs with
  | [] => rest
  | (k, j) :: fs =>
    ',' :: (l.newline depth ++ (quote k ++ (l.colon ++ write l depth j
      (writeFields l depth fs rest))))

end

/-- The value on one line. -/
def line (j : Json) : String := String.ofList (j.write compact 0 [])

/-- The value over several lines. -/
def pretty (j : Json) : String := String.ofList (j.write indented 0 [])

/-- A list of texts. -/
def texts (ss : List String) : Json := array (ss.map text)

end Json
end KnittingPattern
