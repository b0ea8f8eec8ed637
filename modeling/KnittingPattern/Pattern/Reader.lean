import KnittingPattern.Token.Stream
import KnittingPattern.Pattern.Tree
import KnittingPattern.Pattern.SyntaxError

/-! # Reading patterns

A machine takes one token at a time.  It keeps the groups that are open, the statements read in the
innermost one, and the place within a line where the next token stands; a token that no pattern can
have in this place is an error.  Main definitions: `Reader.step`, `Pattern.read`.

The grammar is one of lines.  A line is a synonym `a := b`, a definition `a = ...`, a row of
stitches and braced rows, or a group that is opened by a brace at the end of a line and closed by
one at the beginning of another.  Stitches, braced rows and groups may have a bracket list behind
them.  A line that is one braced row is that row.  The word `row` may stand before the elements of a
row. -/

namespace KnittingPattern

open Token (Kind)

/-- What a row or a group will be once its line ends. -/
inductive Role where
  | statement
  | definition (name : Identifier)

/-- A brace that is open within a line, with the elements of the row around it. -/
structure OpenBrace where
  position : Position
  before : List Expr

/-- A row that is being read.  `elements` are those of the innermost open brace. -/
structure RowLine where
  role : Role
  desc : Description
  braces : List OpenBrace
  elements : List Expr

/-- The row with one more element. -/
def RowLine.push (line : RowLine) (e : Expr) : RowLine :=
  { line with elements := line.elements ++ [e] }

/-- A group that is open, with the statements before it. -/
structure OpenGroup where
  role : Role
  desc : Description
  lbrace : Position
  before : List Stmt

/-- What a bracket list belongs to. -/
inductive Owner where
  | stitch (line : RowLine) (name : Identifier)
  | inlineRow (line : RowLine) (elements : List Expr)
  | group (g : OpenGroup) (rbrace : Position) (lines : List Stmt)

/-- How far an argument of a bracket list is read. -/
inductive ArgumentPlace where
  /-- After the opening bracket. -/
  | first
  /-- After a comma. -/
  | next
  /-- After a minus. -/
  | minus
  /-- After a name, which may be the value of a size. -/
  | name (id : Identifier)
  /-- After the value of a size, which may have a unit. -/
  | value (s : Size)
  /-- After an argument. -/
  | done

/-- How far a run of comment lines is read.  The run that begins a pattern may be its title. -/
inductive Run where
  /-- Nothing is read yet. -/
  | start
  /-- No run goes on. -/
  | none
  /-- After a comment. -/
  | comment (title : Bool)
  /-- After the line break that ends a comment line. -/
  | line (title : Bool)
deriving DecidableEq

/-- Where the next token stands. -/
inductive Place where
  /-- Between statements; `desc` is the description of the next one so far. -/
  | between (run : Run) (desc : Description)
  /-- After the first name of a line. -/
  | word (desc : Description) (id : Identifier)
  /-- After `:=`. -/
  | target (desc : Description) (lhs : Identifier)
  /-- After `=`. -/
  | body (desc : Description) (lhs : Identifier)
  /-- After a brace that begins a line or a definition. -/
  | brace (role : Role) (desc : Description) (lbrace : Position)
  /-- Before an element of a row. -/
  | elements (line : RowLine)
  /-- After the name of a stitch. -/
  | stitch (line : RowLine) (id : Identifier)
  /-- After the brace that closes a row within a line. -/
  | closed (line : RowLine) (elements : List Expr)
  /-- After the brace that closes a group. -/
  | groupClosed (g : OpenGroup) (rbrace : Position) (lines : List Stmt)
  /-- Within a bracket list. -/
  | args (owner : Owner) (args : List Expr) (place : ArgumentPlace)
  /-- After a statement. -/
  | lineEnd (stmt : Stmt)
  /-- After a comment behind a statement. -/
  | commented (stmt : Stmt)

structure Reader where
  title : Description
  groups : List OpenGroup
  statements : List Stmt
  place : Place

namespace Reader

/-- Nothing is read yet. -/
def start : Reader := ⟨.none, [], [], .between .start .none⟩

def unexpected (t : Token) (expected : Expectation) : Except SyntaxError Reader :=
  .error (.unexpected t.kind t.literal t.position expected)

def identifier (t : Token) : Identifier := ⟨t.position, t.literal⟩

def comment (t : Token) : Comment := ⟨t.position, t.literal⟩

/-- Goes on at another place. -/
def goto (r : Reader) (p : Place) : Except SyntaxError Reader := .ok { r with place := p }

/-- The place after a brace within a line. -/
def openBrace (line : RowLine) (p : Position) : Place :=
  .elements { line with braces := ⟨p, line.elements⟩ :: line.braces, elements := [] }

/-- The statement of a row; a single row within it takes its place. -/
def rowStmt (line : RowLine) : Stmt :=
  let (elements, args) := match line.elements with
    | [.row es as] => (es, as)
    | es => (es, [])
  match line.role with
  | .statement => .row elements args line.desc
  | .definition name => .define name (.row elements args) line.desc

/-- The statement of a group. -/
def groupStmt (g : OpenGroup) (rbrace : Position) (args : List Expr) (lines : List Stmt) : Stmt :=
  match g.role with
  | .statement => .group g.lbrace rbrace args lines g.desc
  | .definition name => .define name (.group g.lbrace rbrace args lines) g.desc

/-- A token between statements where no run of comments goes on. -/
def statement (r : Reader) (desc : Description) (t : Token) : Except SyntaxError Reader :=
  match t.kind, r.groups with
  | .newline, _ => r.goto (.between .none desc)
  | .endOfSource, [] => r.goto (.between .none desc)
  | .endOfInput, [] => r.goto (.between .none desc)
  | .endOfSource, g :: _ => .error (.unclosedGroup t.position g.lbrace)
  | .endOfInput, g :: _ => .error (.unclosedGroup t.position g.lbrace)
  | .comment, _ => r.goto (.between (.comment false) (desc.extend ⟨[comment t]⟩))
  | .rightBrace, g :: groups =>
    .ok { r with
      groups := groups, statements := g.before, place := .groupClosed g t.position r.statements }
  | .identifier, _ => r.goto (.word desc (identifier t))
  | .leftBrace, _ => r.goto (.brace .statement desc t.position)
  | _, _ => unexpected t .statement

/-- A token between statements. -/
def between (r : Reader) (run : Run) (desc : Description) (t : Token) : Except SyntaxError Reader :=
  match run, t.kind with
  | .start, .comment => r.goto (.between (.comment true) ⟨[comment t]⟩)
  | .comment title, .newline => r.goto (.between (.line title) desc)
  | .line title, .comment => r.goto (.between (.comment title) (desc.push (comment t)))
  | .line true, .newline => .ok { r with title := desc, place := .between .none .none }
  | _, _ => r.statement desc t

/-- Adds a statement and goes on after it. -/
def finish (r : Reader) (s : Stmt) : Reader :=
  { r with statements := r.statements ++ [s], place := .between .none .none }

/-- A token that ends the line of a statement. -/
def ending (r : Reader) (s : Stmt) (t : Token) : Except SyntaxError Reader :=
  if t.kind = .newline then .ok (r.finish s)
  else if t.kind.endsSource then (r.finish s).statement .none t
  else unexpected t .lineEnd

/-- A token after a statement. -/
def lineEnd (r : Reader) (s : Stmt) (t : Token) : Except SyntaxError Reader :=
  if t.kind = .comment then r.goto (.commented (s.withDesc (s.desc.push (comment t))))
  else r.ending s t

/-- A token before an element of a row. -/
def elements (r : Reader) (line : RowLine) (t : Token) : Except SyntaxError Reader :=
  match t.kind, line.braces with
  | .identifier, _ => r.goto (.stitch line (identifier t))
  | .leftBrace, _ => r.goto (openBrace line t.position)
  | .rightBrace, b :: braces =>
    r.goto (.closed { line with braces := braces, elements := b.before } line.elements)
  | kind, [] =>
    if kind.endsLine || kind == .comment then r.lineEnd (rowStmt line) t else unexpected t .rowRest
  | kind, b :: _ =>
    if kind.endsLine || kind == .comment then .error (.unclosedRow t.position b.position)
    else unexpected t .inlineRowRest

/-- A token after the name of a stitch. -/
def stitch (r : Reader) (line : RowLine) (id : Identifier) (t : Token) :
    Except SyntaxError Reader :=
  match t.kind with
  | .leftParen => r.goto (.args (.stitch line id) [] .first)
  | .identifier | .leftBrace | .rightBrace | .comment | .newline | .endOfSource | .endOfInput =>
    r.elements (line.push (.stitch id.position id [])) t
  | _ => unexpected t .stitchRest

/-- A token after the first name of a line. -/
def word (r : Reader) (desc : Description) (id : Identifier) (t : Token) :
    Except SyntaxError Reader :=
  match t.kind with
  | .becomes => r.goto (.target desc id)
  | .equals => r.goto (.body desc id)
  | .identifier | .leftBrace =>
    if id.name = "row" then r.elements ⟨.statement, desc, [], []⟩ t
    else r.stitch ⟨.statement, desc, [], []⟩ id t
  | .leftParen | .comment | .newline | .endOfSource | .endOfInput =>
    r.stitch ⟨.statement, desc, [], []⟩ id t
  | _ => unexpected t .lineRest

/-- A token after `:=`. -/
def target (r : Reader) (desc : Description) (lhs : Identifier) (t : Token) :
    Except SyntaxError Reader :=
  if t.kind = .identifier then r.goto (.lineEnd (.synonym lhs (identifier t) desc))
  else unexpected t .synonymTarget

/-- A token after `=`. -/
def body (r : Reader) (desc : Description) (lhs : Identifier) (t : Token) :
    Except SyntaxError Reader :=
  match t.kind with
  | .leftBrace => r.goto (.brace (.definition lhs) desc t.position)
  | .identifier => r.goto (.stitch ⟨.definition lhs, desc, [], []⟩ (identifier t))
  | _ => unexpected t .definition

/-- A token after a brace that begins a line or a definition: a group if the line ends here. -/
def brace (r : Reader) (role : Role) (desc : Description) (lbrace : Position) (t : Token) :
    Except SyntaxError Reader :=
  match t.kind with
  | .newline =>
    .ok { r with
      groups := ⟨role, desc, lbrace, r.statements⟩ :: r.groups
      statements := []
      place := .between .none .none }
  | .identifier | .leftBrace => r.elements ⟨role, desc, [⟨lbrace, []⟩], []⟩ t
  | _ => unexpected t .braceRest

/-- A token after the brace that closes a row within a line. -/
def closed (r : Reader) (line : RowLine) (es : List Expr) (t : Token) : Except SyntaxError Reader :=
  if t.kind = .leftParen then r.goto (.args (.inlineRow line es) [] .first)
  else r.elements (line.push (.row es [])) t

/-- A token after the brace that closes a group. -/
def groupClosed (r : Reader) (g : OpenGroup) (rbrace : Position) (lines : List Stmt) (t : Token) :
    Except SyntaxError Reader :=
  if t.kind = .leftParen then r.goto (.args (.group g rbrace lines) [] .first)
  else r.lineEnd (groupStmt g rbrace [] lines) t

/-- The place after a whole bracket list. -/
def afterArgs (owner : Owner) (args : List Expr) : Place :=
  match owner with
  | .stitch line id => .elements (line.push (.stitch id.position id args))
  | .inlineRow line es => .elements (line.push (.row es args))
  | .group g rbrace lines => .lineEnd (groupStmt g rbrace args lines)

/-- The amount a number writes: a whole number of 64 bits, or else a binary number. -/
def amount? (literal : String) : Option Amount :=
  match Decimal.int64? literal.toList with
  | some n => some (.whole n)
  | none => (Binary64.ofChars? literal.toList).map .decimal

/-- A token that begins a size. -/
def sizeValue (r : Reader) (owner : Owner) (args : List Expr) (before : Bool) (t : Token)
    (expected : Expectation) : Except SyntaxError Reader :=
  match t.kind with
  | .identifier =>
    r.goto (.args owner args (.value ⟨t.position, .named (identifier t), .count, before⟩))
  | .number =>
    match amount? t.literal with
    | some a => r.goto (.args owner args (.value ⟨t.position, a, .count, before⟩))
    | none => .error (.invalidNumber t.literal t.position)
  | .asterisk =>
    r.goto (.args owner (args ++ [.size ⟨t.position, .unstated, .toEnd, before⟩]) .done)
  | _ => unexpected t expected

/-- A token that begins an argument. -/
def argument (r : Reader) (owner : Owner) (args : List Expr) (t : Token) :
    Except SyntaxError Reader :=
  match t.kind with
  | .identifier => r.goto (.args owner args (.name (identifier t)))
  | .minus => r.goto (.args owner args .minus)
  | _ => r.sizeValue owner args false t .argument

/-- A token after an argument. -/
def afterArgument (r : Reader) (owner : Owner) (args : List Expr) (t : Token) :
    Except SyntaxError Reader :=
  match t.kind with
  | .comma => r.goto (.args owner args .next)
  | .rightParen => r.goto (afterArgs owner args)
  | _ => unexpected t .argumentRest

/-- A token after the value of a size. -/
def afterValue (r : Reader) (owner : Owner) (args : List Expr) (s : Size) (t : Token) :
    Except SyntaxError Reader :=
  let measured (m : Measure) := r.goto (.args owner (args ++ [.size { s with measure := m }]) .done)
  match t.kind with
  | .comma | .rightParen => r.afterArgument owner (args ++ [.size s]) t
  | .feet => measured .feet
  | .inches => measured .inches
  | .identifier =>
    match Measure.ofName? t.literal with
    | some m => measured m
    | none => .error (.unknownUnit t.literal t.position)
  | _ => unexpected t .unit

/-- A token within a bracket list. -/
def args (r : Reader) (owner : Owner) (as : List Expr) (place : ArgumentPlace) (t : Token) :
    Except SyntaxError Reader :=
  match place with
  | .first => if t.kind = .rightParen then r.goto (afterArgs owner as) else r.argument owner as t
  | .next => r.argument owner as t
  | .minus => r.sizeValue owner as true t .sizeValue
  | .name id =>
    match t.kind with
    | .identifier | .feet | .inches =>
      r.afterValue owner as ⟨id.position, .named id, .count, false⟩ t
    | _ => r.afterArgument owner (as ++ [.ident id]) t
  | .value s => r.afterValue owner as s t
  | .done => r.afterArgument owner as t

/-- Takes one token. -/
def step (r : Reader) (t : Token) : Except SyntaxError Reader :=
  match r.place with
  | .between run desc => r.between run desc t
  | .word desc id => r.word desc id t
  | .target desc lhs => r.target desc lhs t
  | .body desc lhs => r.body desc lhs t
  | .brace role desc lbrace => r.brace role desc lbrace t
  | .elements line => r.elements line t
  | .stitch line id => r.stitch line id t
  | .closed line es => r.closed line es t
  | .groupClosed g rbrace lines => r.groupClosed g rbrace lines t
  | .args owner as place => r.args owner as place t
  | .lineEnd s => r.lineEnd s t
  | .commented s => r.ending s t

/-- Takes tokens in their order. -/
def run (r : Reader) (ts : List Token) : Except SyntaxError Reader := ts.foldlM step r

end Reader

namespace Pattern

/-- Reads a stream of tokens as a pattern. -/
def read (s : TokenStream) : Except SyntaxError Block := do
  let r ← Reader.start.run (s.tokens ++ [s.last])
  return ⟨r.statements, s.peek.position, s.last.position, r.title⟩

/-- Reads several texts as one pattern. -/
def ofSources (texts : List String) : Except SyntaxError Block := read (.ofSources texts)

/-- Reads one text as a pattern. -/
def ofText (text : String) : Except SyntaxError Block := ofSources [text]

end Pattern
end KnittingPattern
