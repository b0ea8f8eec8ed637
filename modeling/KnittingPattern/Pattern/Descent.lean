import KnittingPattern.Pattern.Reader
import KnittingPattern.Token.Feed

/-! # Reading patterns by descent

The grammar of patterns, read with one act for each of its parts.  An act looks at the next token
and takes it, or leaves it to the act of the part that it begins.  Parts that follow each other are
read by a loop, round by round, and parts that nest by acts that call themselves.  Nothing bounds
the rounds and the calls, and the feed never runs out of tokens: an act that goes on for ever comes
to nothing.  Acts that are given the reading of what nests in them are reducible, for the recursion
is closed by a loop that has to see through them that it is monotone.  Main definition:
`Descent.pattern`. -/

namespace KnittingPattern

open Token (Kind)

/-- A feed, and the tokens that have been taken from it in their order. -/
structure Intake where
  feed : TokenFeed
  taken : List Token

/-- An act of reading: it comes to an answer or a syntax error, or else to `none`. -/
abbrev Descent (α : Type) : Type := ExceptT SyntaxError (StateT Intake Option) α

/-- The statement with the comment behind it, if there is one. -/
def Stmt.remarked (s : Stmt) : Option Comment → Stmt
  | some c => s.withDesc (s.desc.push c)
  | none => s

namespace Descent

open Reader (identifier comment amount? rowStmt groupStmt)

/-- Takes the next token. -/
def next : Descent Token := fun i =>
  some (.ok i.feed.next.1, ⟨i.feed.next.2, i.taken ++ [i.feed.next.1]⟩)

/-- Looks at the next token. -/
def peek : Descent Token := fun i =>
  some (.ok i.feed.peek.1, { i with feed := i.feed.peek.2 })

def unexpected {α : Type} (t : Token) (expected : Expectation) : Descent α :=
  throw (.unexpected t.kind t.literal t.position expected)

/-- What one round of a loop comes to: another round, or the end of the loop. -/
inductive Round (σ α : Type) where
  | again (s : σ)
  | done (a : α)

/-- What a loop comes to behind this round. -/
def Round.rest {σ α : Type} (round : σ → Descent (Round σ α)) (x : Round σ α) : Descent α :=
  match x with
  | .done a => return a
  | .again s => do
    let x ← round s
    x |>.rest round
partial_fixpoint

def loop {σ α : Type} (round : σ → Descent (Round σ α)) (s : σ) : Descent α :=
  (Round.again s).rest round

/-- What the value of a size is measured in. -/
def measure : Descent Measure := do
  match (← peek).kind with
  | .comma | .rightParen => return .count
  | .feet =>
    let _ ← next
    return .feet
  | .inches =>
    let _ ← next
    return .inches
  | .identifier =>
    let t ← next
    match Measure.ofName? t.literal with
    | some m => return m
    | none => throw (.unknownUnit t.literal t.position)
  | _ => unexpected (← next) .unit

/-- A size, from its first token on. -/
def size (t : Token) : Descent Size := do
  match t.kind with
  | .asterisk => return ⟨t.position, .unstated, .toEnd, false⟩
  | .identifier => return ⟨t.position, .named (identifier t), ← measure, false⟩
  | _ =>
    match amount? t.literal with
    | some a => return ⟨t.position, a, ← measure, false⟩
    | none => throw (.invalidNumber t.literal t.position)

def argument : Descent Expr := do
  let t ← next
  match t.kind with
  | .identifier =>
    match (← peek).kind with
    | .identifier | .feet | .inches => return .size (← size t)
    | _ => return .ident (identifier t)
  | .number | .asterisk => return .size (← size t)
  | .minus =>
    let value ← next
    if value.kind.isSizeValue then return .size { ← size value with before := true }
    else unexpected value .sizeValue
  | _ => unexpected t .argument

/-- An argument and what divides it from the next one. -/
def argumentsRound (as : List Expr) : Descent (Round (List Expr) (List Expr)) := do
  let a ← argument
  let t ← next
  match t.kind with
  | .comma => return .again (as ++ [a])
  | .rightParen => return .done (as ++ [a])
  | _ => unexpected t .argumentRest

/-- The arguments behind these. -/
def arguments (as : List Expr) : Descent (List Expr) := loop argumentsRound as

/-- A bracket list, behind its opening bracket. -/
def brackets : Descent (List Expr) := do
  if (← peek).kind = .rightParen then
    let _ ← next
    return []
  else arguments []

/-- A bracket list where there may be none. -/
def bracketsIfAny : Descent (List Expr) := do
  if (← peek).kind = .leftParen then
    let _ ← next
    brackets
  else return []

/-- A stitch, behind its name. -/
def stitch (t : Token) : Descent Expr := do
  match (← peek).kind with
  | .leftParen =>
    let _ ← next
    return .stitch t.position (identifier t) (← brackets)
  | .identifier | .leftBrace | .rightBrace | .comment | .newline | .endOfSource | .endOfInput =>
    return .stitch t.position (identifier t) []
  | _ => unexpected (← next) .stitchRest

/-- An element of a row in braces, or the brace that closes it; `inner` reads rows within it. -/
@[reducible]
def bracedRound (inner : Position → Descent Expr) (lbrace : Position) (es : List Expr) :
    Descent (Round (List Expr) Expr) := do
  let t ← next
  match t.kind with
  | .identifier => return .again (es ++ [← stitch t])
  | .leftBrace => return .again (es ++ [← inner t.position])
  | .rightBrace => return .done (.row es (← bracketsIfAny))
  | kind =>
    if kind.endsLine || kind == .comment then throw (.unclosedRow t.position lbrace)
    else unexpected t .inlineRowRest

/-- What a row in braces comes to behind this round. -/
def Round.braced (lbrace : Position) (x : Round (List Expr) Expr) : Descent Expr :=
  match x with
  | .done e => return e
  | .again es => do
    let x ← bracedRound (fun p => Round.again [] |>.braced p) lbrace es
    x |>.braced lbrace
partial_fixpoint

/-- A row in braces, behind the first of them. -/
def braced (lbrace : Position) : Descent Expr := (Round.again []).braced lbrace

/-- An element of a row, or nothing where the row ends. -/
def rowRound (role : Role) (desc : Description) (es : List Expr) :
    Descent (Round (List Expr) Stmt) := do
  match (← peek).kind with
  | .identifier =>
    let t ← next
    return .again (es ++ [← stitch t])
  | .leftBrace =>
    let t ← next
    return .again (es ++ [← braced t.position])
  | kind =>
    if kind.endsLine || kind == .comment then return .done (rowStmt ⟨role, desc, [], es⟩)
    else unexpected (← next) .rowRest

/-- What a row becomes, behind these elements. -/
def row (role : Role) (desc : Description) (es : List Expr) : Descent Stmt :=
  loop (rowRound role desc) es

section

variable (inner : Position → Descent (List Stmt))

/-- A group, behind its opening brace; `inner` reads its statements and leaves the brace that closes
it. -/
@[reducible]
def group (role : Role) (desc : Description) (lbrace : Position) : Descent Stmt := do
  let ss ← inner lbrace
  let t ← next
  return groupStmt ⟨role, desc, lbrace, []⟩ t.position (← bracketsIfAny) ss

/-- What begins with a brace: a group if the line ends behind it, or else a row. -/
@[reducible]
def brace (role : Role) (desc : Description) (lbrace : Position) : Descent Stmt := do
  match (← peek).kind with
  | .newline => group inner role desc lbrace
  | .identifier | .leftBrace => row role desc [← braced lbrace]
  | _ => unexpected (← next) .braceRest

/-- What a name stands for, behind `=`. -/
@[reducible]
def body (desc : Description) (lhs : Identifier) : Descent Stmt := do
  let t ← next
  match t.kind with
  | .leftBrace => brace inner (.definition lhs) desc t.position
  | .identifier => row (.definition lhs) desc [← stitch t]
  | _ => unexpected t .definition

/-- A line that begins with a word. -/
@[reducible]
def word (desc : Description) (t : Token) : Descent Stmt := do
  match (← peek).kind with
  | .becomes =>
    let _ ← next
    let rhs ← next
    if rhs.kind = .identifier then return .synonym (identifier t) (identifier rhs) desc
    else unexpected rhs .synonymTarget
  | .equals =>
    let _ ← next
    body inner desc (identifier t)
  | .identifier | .leftBrace =>
    if t.literal = "row" then row .statement desc []
    else row .statement desc [← stitch t]
  | .leftParen | .comment | .newline | .endOfSource | .endOfInput =>
    row .statement desc [← stitch t]
  | _ => unexpected (← next) .lineRest

/-- A comment behind a statement, if there is one. -/
def remark : Descent (Option Comment) := do
  if (← peek).kind = .comment then
    let t ← next
    return some (comment t)
  else return none

/-- The end of a line, and the comment before it. -/
def lineEnd : Descent (Option Comment) := do
  let c ← remark
  match (← peek).kind with
  | .newline =>
    let _ ← next
    return c
  | .endOfSource | .endOfInput => return c
  | _ => unexpected (← next) .lineEnd

/-- A statement. -/
@[reducible]
def stmt (desc : Description) : Descent Stmt := do
  let t ← next
  match t.kind with
  | .identifier => word inner desc t
  | .leftBrace => brace inner .statement desc t.position
  | _ => unexpected t .statement

/-- A statement and the end of its line. -/
@[reducible]
def line (desc : Description) : Descent Stmt := do
  let s ← stmt inner desc
  return s.remarked (← lineEnd)

/-- A comment of a run, or nothing where the run ends; whether a blank line ended it. -/
def descriptionRound (d : Description) : Descent (Round Description (Description × Bool)) := do
  if (← peek).kind = .comment then
    let d := d.push (comment (← next))
    if (← peek).kind = .newline then
      let _ ← next
      if (← peek).kind = .newline then return .done (d, true) else return .again d
    else return .done (d, false)
  else return .done (d, false)

/-- A run of comments, behind these. -/
def description (d : Description) : Descent (Description × Bool) := loop descriptionRound d

/-- The statements read so far, and the description of the next one. -/
structure Lines where
  statements : List Stmt
  pending : Description

/-- A line of a pattern, or of a group if one was opened. -/
@[reducible]
def linesRound (opened : Option Position) (l : Lines) : Descent (Round Lines (List Stmt)) := do
  match (← peek).kind, opened with
  | .newline, _ | .endOfSource, none =>
    let _ ← next
    return .again l
  | .endOfInput, none =>
    let _ ← next
    return .done l.statements
  | .endOfSource, some lbrace | .endOfInput, some lbrace =>
    let t ← next
    throw (.unclosedGroup t.position lbrace)
  | .comment, _ =>
    let x ← description .none
    return .again { l with pending := l.pending.extend x.1 }
  | .rightBrace, some _ => return .done l.statements
  | _, _ => return .again ⟨l.statements ++ [← line inner l.pending], .none⟩

end

/-- What the lines of a pattern or of a group come to behind this round. -/
def Round.lines (opened : Option Position) (x : Round Lines (List Stmt)) : Descent (List Stmt) :=
  match x with
  | .done ss => return ss
  | .again l => do
    let x ← linesRound (fun lbrace => Round.again ⟨[], .none⟩ |>.lines (some lbrace)) opened l
    x |>.lines opened
partial_fixpoint

/-- The lines of a pattern, or of a group up to the brace that closes it, behind these. -/
def lines (opened : Option Position) (l : Lines) : Descent (List Stmt) :=
  (Round.again l).lines opened

/-- The statements of a group. -/
def groupLines (lbrace : Position) : Descent (List Stmt) := lines (some lbrace) ⟨[], .none⟩

/-- What stands before the first statement: the title, if a blank line ends it, and the description
of the statement. -/
def opening : Descent (Description × Description) := do
  if (← peek).kind = .comment then
    let x ← description .none
    if x.2 then return (x.1, .none) else return (.none, x.1)
  else return (.none, .none)

/-- A whole pattern. -/
def pattern : Descent Block := do
  let first ← peek
  let x ← opening
  let ss ← lines none ⟨[], x.2⟩
  let last ← peek
  return ⟨ss, first.position, last.position, x.1⟩

end Descent
end KnittingPattern
