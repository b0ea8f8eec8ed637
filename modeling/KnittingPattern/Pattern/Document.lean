import KnittingPattern.Document
import KnittingPattern.Pattern.Tree

/-! # Patterns as documents

Every statement and expression is a record of its parts that begins with its type.  Numbers are
texts, so that none loses digits. -/

namespace KnittingPattern

namespace Position

def document (p : Position) : Document :=
  .record [("line", .natural p.line), ("column", .natural p.column)]

end Position

namespace Identifier

def fields (id : Identifier) : List (String × Document) :=
  [("at", id.position.document), ("name", .text id.name)]

def document (id : Identifier) : Document := .record id.fields

end Identifier

namespace Description

def document (d : Description) : Document :=
  .record [("comments", .list (d.comments.map fun c =>
    .record [("at", c.position.document), ("text", .text c.text)]))]

end Description

namespace Measure

/-- The name of a measure in documents. -/
def label : Measure → String
  | count => "none"
  | millimetres => "mm"
  | centimetres => "cm"
  | inches => "inches"
  | feet => "feet"
  | toEnd => "asterisk"

end Measure

namespace Amount

def document : Amount → Document
  | whole n => .tagged "int" (.text (toString n))
  | decimal x => .tagged "float" (.text x.text)
  | named id => .tagged "ident" id.document
  | unstated => .text "none"

end Amount

namespace Size

def fields (s : Size) : List (String × Document) :=
  [("at", s.position.document), ("value", s.amount.document), ("unit", .text s.measure.label),
    ("before", .flag s.before)]

def document (s : Size) : Document := .record s.fields

end Size

/-- A bracket list, given its arguments. -/
def Document.brackets (args : List Document) : Document := .record [("args", .list args)]

/-- A record that begins with its type. -/
def Document.typed (type : String) (fields : List (String × Document)) : Document :=
  .record (("type", .text type) :: fields)

mutual

def Expr.document : Expr → Document
  | .ident id => .typed "IdentExpr" id.fields
  | .size s => .typed "SizeExpr" s.fields
  | .stitch p name args =>
    .typed "StitchExpr"
      [("at", p.document), ("stitch", name.document), ("args", .brackets (Expr.documents args))]
  | .row elements args =>
    .typed "RowExpr"
      [("stitches", .list (Expr.documents elements)), ("args", .brackets (Expr.documents args))]
  | .group lbrace rbrace args lines =>
    .typed "GroupExpr"
      [("lbrace", lbrace.document), ("rbrace", rbrace.document),
        ("args", .brackets (Expr.documents args)), ("lines", .list (Stmt.documents lines))]

def Expr.documents : List Expr → List Document
  | [] => []
  | e :: es => e.document :: Expr.documents es

def Stmt.document : Stmt → Document
  | .synonym lhs rhs desc =>
    .typed "AliasStmt" [("lhs", lhs.document), ("rhs", rhs.document), ("desc", desc.document)]
  | .define lhs rhs desc =>
    .typed "AssignStmt" [("lhs", lhs.document), ("rhs", rhs.document), ("desc", desc.document)]
  | .row elements args desc =>
    .typed "RowStmt"
      [("row", .record [("stitches", .list (Expr.documents elements)),
        ("args", .brackets (Expr.documents args))]), ("desc", desc.document)]
  | .group lbrace rbrace args lines desc =>
    .typed "GroupStmt"
      [("group", .record [("lbrace", lbrace.document), ("rbrace", rbrace.document),
        ("args", .brackets (Expr.documents args)), ("lines", .list (Stmt.documents lines))]),
        ("desc", desc.document)]
  | .block statements start stop desc =>
    .typed "BlockStmt"
      [("statements", .list (Stmt.documents statements)), ("start", start.document),
        ("end", stop.document), ("desc", desc.document)]

def Stmt.documents : List Stmt → List Document
  | [] => []
  | s :: ss => s.document :: Stmt.documents ss

end

namespace Block

def document (b : Block) : Document := b.toStmt.document

def toJson (b : Block) : Json := b.document.toJson

end Block
end KnittingPattern
