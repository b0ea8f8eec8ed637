import KnittingPattern.Text.Position
import KnittingPattern.Text.Quoted

/-! # Tokens

A text is cut into lexemes, each the longest run its first character can start; nothing is lost, so
the lexemes of a text concatenate to it.  Placing the lexemes gives tokens, which know the position
of their first character and the text they come from.  A listing has one line for each token: where
it is, its class and its text; blanks are left out.  Main definitions: `Lexeme.scan`,
`Token.tokenize`, `Token.listing`. -/

namespace KnittingPattern

namespace Token

/-- The classes of tokens.  The first two end a text and are not written in it. -/
inductive Kind
  | endOfInput
  | endOfSource
  | whitespace
  | newline
  | comment
  | identifier
  | number
  | minus
  | asterisk
  | feet
  | inches
  | comma
  | leftParen
  | rightParen
  | leftBrace
  | rightBrace
  | equals
  | becomes
  | illegal
deriving DecidableEq

namespace Kind

/-- The name of a class in token listings. -/
def label : Kind → String
  | endOfInput => "Eof"
  | endOfSource => "NextSource"
  | whitespace => "Whitespace"
  | newline => "Newline"
  | comment => "Comment"
  | identifier => "Identifier"
  | number => "Numeric"
  | minus => "Minus"
  | asterisk => "Asterisk"
  | feet => "Feet"
  | inches => "Inches"
  | comma => "Comma"
  | leftParen => "LeftParen"
  | rightParen => "RightParen"
  | leftBrace => "LeftBrace"
  | rightBrace => "RightBrace"
  | equals => "Equals"
  | becomes => "Alias"
  | illegal => "Illegal"

/-- What a class is called in messages. -/
def description : Kind → String
  | endOfInput => "end of input"
  | endOfSource => "end of source"
  | whitespace => "whitespace"
  | newline => "newline"
  | comment => "comment"
  | identifier => "identifier"
  | number => "number"
  | minus => "'-'"
  | asterisk => "'*'"
  | feet => "feet mark"
  | inches => "inches mark"
  | comma => "','"
  | leftParen => "'('"
  | rightParen => "')'"
  | leftBrace => "'\x7b'"
  | rightBrace => "'\x7d'"
  | equals => "'='"
  | becomes => "':='"
  | illegal => "illegal character"

/-- The classes in the order of their declaration. -/
def all : List Kind :=
  [endOfInput, endOfSource, whitespace, newline, comment, identifier, number, minus, asterisk, feet,
    inches, comma, leftParen, rightParen, leftBrace, rightBrace, equals, becomes, illegal]

/-- Nothing of a text follows such a token. -/
def endsSource : Kind → Bool
  | endOfInput | endOfSource => true
  | _ => false

/-- Nothing of a line follows such a token. -/
def endsLine : Kind → Bool
  | newline => true
  | k => k.endsSource

/-- Such a token may be the value of a size. -/
def isSizeValue : Kind → Bool
  | number | identifier | asterisk => true
  | _ => false

end Kind
end Token

open Token (Kind)

/-- A piece of text with its class. -/
structure Lexeme where
  kind : Kind
  text : String
deriving DecidableEq

namespace Lexeme

/-- Blanks within a line: space, tab and form feed. -/
def isBlank (c : Char) : Bool := c == ' ' || c == '\t' || c == '\x0c'

/-- Letters are those of ASCII. -/
def isLetter (c : Char) : Bool := ('a' ≤ c && c ≤ 'z') || ('A' ≤ c && c ≤ 'Z')

/-- A name goes on with letters and hyphens. -/
def isNamePart (c : Char) : Bool := isLetter c || c == '-'

/-- Numbers are runs of digits and points, well formed or not. -/
def isNumberPart (c : Char) : Bool := ('0' ≤ c && c ≤ '9') || c == '.'

/-- The class of a character that is a token by itself. -/
def single : Char → Kind
  | '-' => .minus
  | '*' => .asterisk
  | '\'' => .feet
  | '"' => .inches
  | ',' => .comma
  | '(' => .leftParen
  | ')' => .rightParen
  | '{' => .leftBrace
  | '}' => .rightBrace
  | '=' => .equals
  | _ => .illegal

/-- The class of the lexeme that `c` starts before `rest`, and how many characters of `rest` it
takes: as many as its class allows. -/
def extent (c : Char) (rest : List Char) : Kind × Nat :=
  if isBlank c then (.whitespace, (rest.takeWhile isBlank).length)
  else if c = '\n' then (.newline, 0)
  else if c = '\r' then (.newline, if rest.head? = some '\n' then 1 else 0)
  else if c = ';' then (.comment, (rest.takeWhile fun d => !isLineBreak d).length)
  else if isLetter c then (.identifier, (rest.takeWhile isNamePart).length)
  else if isNumberPart c then (.number, (rest.takeWhile isNumberPart).length)
  else if c = ':' then if rest.head? = some '=' then (.becomes, 1) else (.illegal, 0)
  else (single c, 0)

/-- Cuts a text into lexemes behind its first `taken` characters. -/
def scanBehind (taken : Nat) : List Char → List Lexeme
  | [] => []
  | c :: rest =>
    match taken with
    | n + 1 => scanBehind n rest
    | 0 =>
      ⟨(extent c rest).1, String.ofList (c :: rest.take (extent c rest).2)⟩ ::
        scanBehind (extent c rest).2 rest

/-- Cuts a text into lexemes. -/
def scan (cs : List Char) : List Lexeme := scanBehind 0 cs

/-- The position after a row of lexemes. -/
def endPosition (p : Position) (lexemes : List Lexeme) : Position :=
  lexemes.foldl (fun q l => q.advanceOver l.text.toList) p

end Lexeme

/-- A token at its position; `source` counts the texts before the one it comes from. -/
structure Token where
  kind : Kind
  literal : String
  position : Position
  source : Nat
deriving DecidableEq

namespace Token

/-- Gives each lexeme the position of its first character. -/
def place (source : Nat) : Position → List Lexeme → List Token
  | _, [] => []
  | p, l :: ls =>
    ⟨l.kind, l.text, p.following, source⟩ :: place source (p.advanceOver l.text.toList) ls

/-- The tokens of one text, blanks included. -/
def tokenize (source : Nat) (text : String) : List Token :=
  place source .start (Lexeme.scan text.toList)

/-- The position after the last character of a text. -/
def endOf (text : String) : Position := Lexeme.endPosition .start (Lexeme.scan text.toList)

/-- A text with blanks behind it, up to a width. -/
def padRight (width : Nat) (s : String) : String :=
  s ++ String.ofList (List.replicate (width - s.length) ' ')

/-- The line of a token. -/
def line (t : Token) : String :=
  padRight 8 t.position.text ++ padRight 12 t.kind.label ++ Quoted.encode t.literal ++ "\n"

def listing (ts : List Token) : String :=
  String.join ((ts.filter fun t => t.kind != .whitespace).map line)

end Token
end KnittingPattern
