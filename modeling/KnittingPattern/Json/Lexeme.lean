import KnittingPattern.Json
import KnittingPattern.Decimal.Binary64
import KnittingPattern.Text.CharacterClass

/-! # The lexemes of JSON

Brackets, marks, words, numbers and quoted texts, with blanks between them.  Main definition:
`Json.Lexeme.scan?`. -/

namespace KnittingPattern.Json

/-- A lexeme of JSON text. -/
inductive Lexeme where
  | leftBrace
  | rightBrace
  | leftBracket
  | rightBracket
  | colon
  | comma
  /-- A text between quotes; one with half of a surrogate pair denotes none. -/
  | text (s : Option String)
  /-- A value without parts that is not a text. -/
  | atom (j : Json)

namespace Lexeme

/-- Blanks between lexemes. -/
def isBlank (c : Char) : Bool := c == ' ' || c == '\n' || c == '\t' || c == '\r'

/-- A piece of a quoted text: a character, or the number of a sixteen-bit unit. -/
inductive Piece where
  | char (c : Char)
  | unit (n : Nat)

/-- The character a backslash and a letter stand for. -/
def escaped? : Char → Option Char
  | '"' => some '"'
  | '\\' => some '\\'
  | '/' => some '/'
  | 'b' => some '\x08'
  | 'f' => some '\x0c'
  | 'n' => some '\n'
  | 'r' => some '\r'
  | 't' => some '\t'
  | _ => none

/-- The pieces up to the closing quote, and the characters after it.  A control character must not
stand in a text. -/
def pieces? : List Char → Option (List Piece × List Char)
  | [] => none
  | '"' :: cs => some ([], cs)
  | '\\' :: 'u' :: a :: b :: c :: d :: cs => do
    let n ← Hexadecimal.ofDigits? [a, b, c, d]
    let (ps, rest) ← pieces? cs
    return (.unit n :: ps, rest)
  | '\\' :: c :: cs => do
    let c ← escaped? c
    let (ps, rest) ← pieces? cs
    return (.char c :: ps, rest)
  | c :: cs =>
    if c.toNat < 32 ∨ c = '\\' then none
    else do
      let (ps, rest) ← pieces? cs
      return (.char c :: ps, rest)

/-- Units `0xD800` to `0xDBFF` are the first half of a pair, units `0xDC00` to `0xDFFF` the second.
-/
def isHighHalf (n : Nat) : Bool := 0xD800 ≤ n && n < 0xDC00

def isLowHalf (n : Nat) : Bool := 0xDC00 ≤ n && n < 0xE000

/-- Joins the halves of pairs; there is no text if a half stands alone. -/
def join? : List Piece → Option (List Char)
  | [] => some []
  | .char c :: ps => (join? ps).map (c :: ·)
  | .unit n :: .unit m :: ps =>
    if isHighHalf n then
      if isLowHalf m then
        (join? ps).map (Char.ofNat (0x10000 + (n - 0xD800) * 0x400 + (m - 0xDC00)) :: ·)
      else none
    else if isLowHalf n then none
    else (join? (.unit m :: ps)).map (Char.ofNat n :: ·)
  | .unit n :: ps =>
    if isHighHalf n || isLowHalf n then none else (join? ps).map (Char.ofNat n :: ·)

/-- The whole part of a number: one zero, or digits that begin with another. -/
def wholePart? : List Char → Option (List Char × List Char)
  | '0' :: cs => if (cs.head?.map Decimal.isDigit).getD false then none else some (['0'], cs)
  | cs =>
    let ds := cs.takeWhile Decimal.isDigit
    if ds = [] then none else some (ds, cs.dropWhile Decimal.isDigit)

/-- The fraction of a number: nothing, or a point and digits. -/
def fraction? : List Char → Option (List Char × List Char)
  | '.' :: cs =>
    let ds := cs.takeWhile Decimal.isDigit
    if ds = [] then none else some ('.' :: ds, cs.dropWhile Decimal.isDigit)
  | cs => some ([], cs)

/-- The exponent of a number: nothing, or a letter, perhaps a sign, and digits. -/
def exponent? : List Char → Option (List Char × List Char)
  | c :: cs =>
    if c = 'e' ∨ c = 'E' then
      let (sign, cs) := match cs with
        | '-' :: r => (['-'], r)
        | '+' :: r => (['+'], r)
        | r => ([], r)
      let ds := cs.takeWhile Decimal.isDigit
      if ds = [] then none else some (c :: sign ++ ds, cs.dropWhile Decimal.isDigit)
    else some ([], c :: cs)
  | [] => some ([], [])

/-- The number a literal writes. -/
def ofLiteral (literal : List Char) : Json :=
  match Binary64.ofChars? literal with
  | some (.finite ..) =>
    if literal.all Decimal.isDigit then .natural (Decimal.ofDigits literal)
    else .number (String.ofList literal)
  | _ => .unreadable

/-- A number, and the characters after it. -/
def number? (cs : List Char) : Option (Json × List Char) := do
  let (sign, cs) := match cs with
    | '-' :: r => (['-'], r)
    | r => ([], r)
  let (whole, cs) ← wholePart? cs
  let (fraction, cs) ← fraction? cs
  let (exponent, cs) ← exponent? cs
  return (ofLiteral (sign ++ whole ++ fraction ++ exponent), cs)

/-- A lexeme, and the characters after it. -/
def read? : List Char → Option (Lexeme × List Char)
  | '{' :: cs => some (.leftBrace, cs)
  | '}' :: cs => some (.rightBrace, cs)
  | '[' :: cs => some (.leftBracket, cs)
  | ']' :: cs => some (.rightBracket, cs)
  | ':' :: cs => some (.colon, cs)
  | ',' :: cs => some (.comma, cs)
  | 'n' :: 'u' :: 'l' :: 'l' :: cs => some (.atom .null, cs)
  | 't' :: 'r' :: 'u' :: 'e' :: cs => some (.atom (.flag true), cs)
  | 'f' :: 'a' :: 'l' :: 's' :: 'e' :: cs => some (.atom (.flag false), cs)
  | '"' :: cs => (pieces? cs).map fun (ps, rest) => (.text ((join? ps).map String.ofList), rest)
  | cs => (number? cs).map fun (j, rest) => (.atom j, rest)

/-- The lexemes of a text of at most `bound` characters. -/
def scanWithin? (bound : Nat) (cs : List Char) : Option (List Lexeme) :=
  match bound, cs with
  | _, [] => some []
  | 0, _ :: _ => none
  | bound + 1, c :: cs =>
    if isBlank c then scanWithin? bound cs
    else do
      let (l, rest) ← read? (c :: cs)
      return l :: (← scanWithin? bound rest)

/-- The lexemes of a text, if it has no other parts.  Each takes a character at least. -/
def scan? (cs : List Char) : Option (List Lexeme) := scanWithin? cs.length cs

end Lexeme
end KnittingPattern.Json
