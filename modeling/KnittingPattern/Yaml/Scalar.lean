import KnittingPattern.Decimal.Binary64

/-! # YAML scalars

A text is written plain where a reader takes the plain text for that very text, between single
quotes where a plain text would read as something else, between double quotes where characters have
to be escaped, and as a literal block where it has several lines.  Main definition: `Yaml.scalar`.
-/

namespace KnittingPattern.Yaml

/-- The words for no value, for the two flags, and for numbers that are not finite. -/
def words : List String :=
  ["", "~", "null", "Null", "NULL", "true", "True", "TRUE", "false", "False", "FALSE",
    ".inf", ".Inf", ".INF", "+.inf", "+.Inf", "+.INF", "-.inf", "-.Inf", "-.INF",
    ".nan", ".NaN", ".NAN"]

/-- The digit that a character writes, from base two to sixteen. -/
def digitValue (c : Char) : Nat :=
  if Decimal.isDigit c then c.toNat - 48
  else if 'a' ≤ c ∧ c ≤ 'f' then c.toNat - 87
  else if 'A' ≤ c ∧ c ≤ 'F' then c.toNat - 55
  else 16

/-- The number that a row of digits writes in a base. -/
def ofDigits? (base : Nat) (ds : List Char) : Option Nat :=
  if ds ≠ [] ∧ ds.all fun d => digitValue d < base then
    some (ds.foldl (fun n d => base * n + digitValue d) 0)
  else none

/-- The base that a mark behind a zero stands for. -/
def base? : Char → Option Nat
  | 'x' => some 16
  | 'o' => some 8
  | 'b' => some 2
  | _ => none

/-- A whole number of 128 bits in another base than ten. -/
def isRadixNumber (cs : List Char) : Bool :=
  let (negative, cs) := Decimal.splitSign cs
  match cs with
  | '0' :: mark :: ds =>
    match (base? mark).bind fun base => ofDigits? base ds with
    | some n => if negative then n ≤ Nat.pow 2 127 else n < Nat.pow 2 128
    | none => false
  | _ => false

/-- Digits behind a zero that they do not need; no number is written so. -/
def isZeroPadded (cs : List Char) : Bool :=
  match (Decimal.splitSign cs).2 with
  | '0' :: d :: ds => (d :: ds).all Decimal.isDigit
  | _ => false

/-- A finite decimal number. -/
def isDecimal (cs : List Char) : Bool :=
  let unsigned := match cs with
    | '+' :: '+' :: _ => []
    | '+' :: '-' :: _ => []
    | '+' :: cs => cs
    | cs => cs
  match Binary64.ofChars? unsigned with
  | some (.finite _ _ _ _) => true
  | _ => false

/-- A plain text that reads as another value than itself, or looks like a number. -/
def isAmbiguous (s : String) : Bool :=
  s ∈ words || isRadixNumber s.toList || isZeroPadded s.toList || isDecimal s.toList

/-- A character that ends a line. -/
def isBreak (c : Char) : Bool :=
  c == '\n' || c == '\r' || c == '\x85' || c == '\u2028' || c == '\u2029'

/-- A blank, a break, or the end of the text. -/
def endsWord : Option Char → Bool
  | none => true
  | some c => c == ' ' || c == '\t' || c == '\x00' || isBreak c

/-- A character that may stand as it is. -/
def isPrintable (c : Char) : Bool :=
  let n := c.toNat
  n = 0x0A || (0x20 ≤ n && n ≤ 0x7E) || (0xA0 ≤ n && n ≠ 0xFEFF && n ≠ 0xFFFE && n ≠ 0xFFFF)

/-- Characters that mean something at the start of a plain text. -/
def indicators : List Char :=
  ['#', ',', '[', ']', '{', '}', '&', '*', '!', '|', '>', '\'', '"', '%', '@', '\x60']

/-- A colon or a number sign that would end a plain text, behind its first character. -/
def endsPlain (before : Char) : List Char → Bool
  | [] => false
  | c :: cs =>
    (c == ':' && endsWord cs.head?) || (c == '#' && endsWord (some before)) || endsPlain c cs

/-- The text cannot begin or go on as a plain text. -/
def hasIndicators : List Char → Bool
  | [] => false
  | c :: cs =>
    c ∈ indicators || ((c == '?' || c == ':' || c == '-') && endsWord cs.head?) ||
      ['-', '-', '-'].isPrefixOf (c :: cs) || ['.', '.', '.'].isPrefixOf (c :: cs) || endsPlain c cs

/-- Some character of the text is followed by another, of these two classes. -/
def hasPair (p q : Char → Bool) : List Char → Bool
  | [] => false
  | c :: cs => (p c && cs.head?.any q) || hasPair p q cs

def isSpace (c : Char) : Bool := c == ' '

inductive Style where
  | plain
  | single
  | double
  | literal
deriving DecidableEq

def allowsPlain (cs : List Char) : Bool :=
  cs.all isPrintable && !cs.any isBreak && !cs.head?.any isSpace && !cs.getLast?.any isSpace &&
    !hasIndicators cs

def allowsSingle (cs : List Char) : Bool :=
  cs.all isPrintable && !hasPair isBreak isSpace cs && !hasPair isSpace isBreak cs

def allowsLiteral (cs : List Char) : Bool :=
  cs.all isPrintable && !cs.getLast?.any isSpace && !hasPair isSpace isBreak cs

/-- How a text is written. -/
def style (s : String) : Style :=
  let cs := s.toList
  if '\n' ∈ cs then if allowsLiteral cs then .literal else .double
  else if allowsPlain cs && !isAmbiguous s then .plain
  else if allowsSingle cs then .single
  else .double

def indentation (n : Nat) : List Char := List.replicate n ' '

/-- The characters with the indentation of each line behind a break; `fresh` says that a line has
just begun. -/
def lines (indent : Nat) (escape : Char → List Char) (fresh : Bool) : List Char → List Char
  | [] => []
  | c :: cs =>
    if isBreak c then c :: lines indent escape true cs
    else (if fresh then indentation indent else []) ++ escape c ++ lines indent escape false cs

/-- A quote is written twice. -/
def single (indent : Nat) (cs : List Char) : List Char :=
  '\'' :: (lines indent (fun c => if c = '\'' then ['\'', '\''] else [c]) false cs ++
    (if cs.getLast?.any isBreak then indentation indent else []) ++ ['\''])

/-- The number of a character in hexadecimal digits. -/
def hexadecimal (places n : Nat) : List Char :=
  let digits := (Nat.toDigits 16 n).map Char.toUpper
  List.replicate (places - digits.length) '0' ++ digits

/-- A character between double quotes. -/
def escape (c : Char) : List Char :=
  match c with
  | '"' => ['\\', '"']
  | '\\' => ['\\', '\\']
  | '\x00' => ['\\', '0']
  | '\x07' => ['\\', 'a']
  | '\x08' => ['\\', 'b']
  | '\t' => ['\\', 't']
  | '\n' => ['\\', 'n']
  | '\x0b' => ['\\', 'v']
  | '\x0c' => ['\\', 'f']
  | '\r' => ['\\', 'r']
  | '\x1b' => ['\\', 'e']
  | '\x85' => ['\\', 'N']
  | '\u2028' => ['\\', 'L']
  | '\u2029' => ['\\', 'P']
  | c =>
    if isPrintable c then [c]
    else if c.toNat ≤ 0xFF then '\\' :: 'x' :: hexadecimal 2 c.toNat
    else '\\' :: 'u' :: hexadecimal 4 c.toNat

def double (cs : List Char) : List Char := '"' :: (cs.flatMap escape ++ ['"'])

/-- What the head of a literal block says: how far it is indented, if its first line begins with a
blank, and what happens to the breaks at its end. -/
def literalHead (cs : List Char) : List Char :=
  let trailing := (cs.reverse.takeWhile isBreak).length
  '|' :: ((if cs.head?.any fun c => isSpace c || isBreak c then ['2'] else []) ++
    (if trailing = 0 then ['-'] else if trailing = 1 ∧ 1 < cs.length then [] else ['+']))

/-- A text behind its key, with the end of its line; further lines are indented. -/
def scalar (indent : Nat) (s : String) : List Char :=
  let cs := s.toList
  match style s with
  | .plain => cs ++ ['\n']
  | .single => single indent cs ++ ['\n']
  | .double => double cs ++ ['\n']
  | .literal =>
    literalHead cs ++ '\n' :: lines indent (fun c => [c]) true cs ++
      (if cs.getLast?.any isBreak then [] else ['\n'])

end KnittingPattern.Yaml
