import KnittingPattern.Json.Reader
import KnittingPattern.Json.Record
import KnittingPattern.Pattern.Document

/-! # Patterns from JSON

Reads back what `Block.toJson` writes, and every other spelling of it.  `within` says that the value
stands within a typed record, where names have more spellings.  A pattern must not nest deeper than
`maxDepth`, and every part of it must denote something, the parts that are not asked for too. -/

namespace KnittingPattern

/-- How deep arrays and objects may nest. -/
def maxDepth : Nat := 127

def Position.ofJson? (j : Json) : Option Position := do
  match ← j.record? ["line", "column"] with
  | [line, column] => return ⟨← line.nat64?, ← column.nat64?⟩
  | _ => none

def Identifier.ofJson? (j : Json) : Option Identifier := do
  match ← j.record? ["at", "name"] with
  | [position, name] => return ⟨← Position.ofJson? position, ← name.text?⟩
  | _ => none

def Comment.ofJson? (j : Json) : Option Comment := do
  match ← j.record? ["at", "text"] with
  | [position, text] => return ⟨← Position.ofJson? position, ← text.text?⟩
  | _ => none

def Description.ofJson? (j : Json) : Option Description := do
  match ← j.record? ["comments"] with
  | [comments] => return ⟨← (← comments.array?).mapM Comment.ofJson?⟩
  | _ => Option.none

def Measure.ofJson? (within : Bool) (j : Json) : Option Measure := do
  let (name, content) ← j.alternative?
  if Json.isEmptyContent within content then
    [count, millimetres, centimetres, inches, feet, toEnd].find? fun m => m.label = name
  else none

def Amount.ofJson? (within : Bool) (j : Json) : Option Amount := do
  match ← j.alternative? with
  | ("int", some content) => return .whole (← Decimal.int64? (← content.text?).toList)
  | ("float", some content) => return .decimal (← Binary64.ofChars? (← content.text?).toList)
  | ("ident", some content) => return .named (← Identifier.ofJson? content)
  | ("none", content) => if Json.isEmptyContent within content then some .unstated else none
  | _ => none

def Size.ofJson? (within : Bool) (j : Json) : Option Size := do
  match ← j.record? ["at", "value", "unit", "before"] with
  | [position, amount, measure, before] =>
    return ⟨← Position.ofJson? position, ← Amount.ofJson? within amount,
      ← Measure.ofJson? within measure, ← before.flag?⟩
  | _ => none

/-- The arguments of a bracket list. -/
def Json.args? (j : Json) : Option (List Json) := do
  match ← j.record? ["args"] with
  | [args] => args.array?
  | _ => none

namespace Pattern

def exprTypes : List String := ["IdentExpr", "SizeExpr", "StitchExpr", "RowExpr", "GroupExpr"]

def stmtTypes : List String := ["AliasStmt", "AssignStmt", "RowStmt", "GroupStmt", "BlockStmt"]

/-- Reads the parts of a block, given how a statement is read. -/
def blockOfJson? (stmt? : Json → Option Stmt) (j : Json) : Option Block := do
  match ← j.record? ["statements", "start", "end", "desc"] with
  | [statements, start, stop, desc] =>
    return ⟨← (← statements.array?).mapM stmt?, ← Position.ofJson? start,
      ← Position.ofJson? stop, ← Description.ofJson? desc⟩
  | _ => none

mutual

/-- Reads an expression whose nodes nest at most `n` deep. -/
def exprOfJson? (within : Bool) (n : Nat) (j : Json) : Option Expr :=
  match n with
  | 0 => none
  | n + 1 => do
    let (type, j) ← j.typed?
    match ← type.nameAmong? exprTypes within with
    | "IdentExpr" => return .ident (← Identifier.ofJson? j)
    | "SizeExpr" => return .size (← Size.ofJson? true j)
    | "StitchExpr" =>
      match ← j.record? ["at", "stitch", "args"] with
      | [position, name, args] =>
        return .stitch (← Position.ofJson? position) (← Identifier.ofJson? name)
          (← (← args.args?).mapM (exprOfJson? true n))
      | _ => none
    | "RowExpr" =>
      match ← j.record? ["stitches", "args"] with
      | [elements, args] =>
        return .row (← (← elements.array?).mapM (exprOfJson? true n))
          (← (← args.args?).mapM (exprOfJson? true n))
      | _ => none
    | "GroupExpr" =>
      match ← j.record? ["lbrace", "rbrace", "args", "lines"] with
      | [lbrace, rbrace, args, lines] =>
        return .group (← Position.ofJson? lbrace) (← Position.ofJson? rbrace)
          (← (← args.args?).mapM (exprOfJson? true n)) (← (← lines.array?).mapM (stmtOfJson? n))
      | _ => none
    | _ => none

/-- Reads a statement whose nodes nest at most `n` deep. -/
def stmtOfJson? (n : Nat) (j : Json) : Option Stmt :=
  match n with
  | 0 => none
  | n + 1 => do
    let (type, j) ← j.typed?
    match ← type.nameAmong? stmtTypes true with
    | "AliasStmt" =>
      match ← j.record? ["lhs", "rhs", "desc"] with
      | [lhs, rhs, desc] =>
        return .synonym (← Identifier.ofJson? lhs) (← Identifier.ofJson? rhs)
          (← Description.ofJson? desc)
      | _ => none
    | "AssignStmt" =>
      match ← j.record? ["lhs", "rhs", "desc"] with
      | [lhs, rhs, desc] =>
        return .define (← Identifier.ofJson? lhs) (← exprOfJson? true n rhs)
          (← Description.ofJson? desc)
      | _ => none
    | "RowStmt" =>
      match ← j.record? ["row", "desc"] with
      | [row, desc] =>
        match ← row.record? ["stitches", "args"] with
        | [elements, args] =>
          return .row (← (← elements.array?).mapM (exprOfJson? true n))
            (← (← args.args?).mapM (exprOfJson? true n)) (← Description.ofJson? desc)
        | _ => none
      | _ => none
    | "GroupStmt" =>
      match ← j.record? ["group", "desc"] with
      | [group, desc] =>
        match ← group.record? ["lbrace", "rbrace", "args", "lines"] with
        | [lbrace, rbrace, args, lines] =>
          return .group (← Position.ofJson? lbrace) (← Position.ofJson? rbrace)
            (← (← args.args?).mapM (exprOfJson? true n)) (← (← lines.array?).mapM (stmtOfJson? n))
            (← Description.ofJson? desc)
        | _ => none
      | _ => none
    | "BlockStmt" => (blockOfJson? (stmtOfJson? n) j).map Block.toStmt
    | _ => none

end

/-- Reads a pattern from a JSON value. -/
def ofJsonValue? (j : Json) : Option Block := do
  if j.readable ∧ j.depth ≤ maxDepth then
    let (type, parts) ← j.typed?
    match type with
    | .text "BlockStmt" => blockOfJson? (stmtOfJson? j.depth) parts
    | _ => none
  else none

/-- Reads a pattern from a JSON text. -/
def ofJson? (s : String) : Option Block := (Json.parse? s).bind ofJsonValue?

/-- Reads the arguments of a bracket list from a JSON text. -/
def argsOfJson? (s : String) : Option (List Expr) := do
  let args ← (← Json.parse? s).args?
  if Json.readableItems args ∧ (Json.array args).depth + 1 ≤ maxDepth then
    args.mapM (exprOfJson? false maxDepth)
  else none

end Pattern

/-- Reads a size from a JSON text. -/
def Size.ofText? (s : String) : Option Size := (Json.parse? s).bind (Size.ofJson? false)

end KnittingPattern
