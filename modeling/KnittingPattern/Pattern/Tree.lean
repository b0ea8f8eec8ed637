import KnittingPattern.Pattern.Description
import KnittingPattern.Decimal.Binary64

/-! # Pattern trees

A pattern is a list of statements.  A synonym gives a name another rendering, a definition gives it
a row or a group to stand for; rows and groups are what is knitted.  Rows nest in rows, statements
in groups.  A tree that is read from JSON may hold any expression in any place. -/

namespace KnittingPattern

structure Identifier where
  position : Position
  name : String
deriving DecidableEq

/-- The amount of a size. -/
inductive Amount where
  | whole (n : Int)
  | decimal (x : Binary64)
  | named (id : Identifier)
  | unstated
deriving DecidableEq

/-- What a size is measured in; `toEnd` is the rest of the row. -/
inductive Measure where
  | count
  | millimetres
  | centimetres
  | inches
  | feet
  | toEnd
deriving DecidableEq

/-- A quantity in a bracket list.  `before` asks to work until it is reached. -/
structure Size where
  position : Position
  amount : Amount
  measure : Measure
  before : Bool
deriving DecidableEq

mutual

inductive Expr where
  | ident (id : Identifier)
  | size (s : Size)
  | stitch (position : Position) (name : Identifier) (args : List Expr)
  | row (elements args : List Expr)
  | group (lbrace rbrace : Position) (args : List Expr) (lines : List Stmt)

inductive Stmt where
  | synonym (lhs rhs : Identifier) (desc : Description)
  | define (lhs : Identifier) (rhs : Expr) (desc : Description)
  | row (elements args : List Expr) (desc : Description)
  | group (lbrace rbrace : Position) (args : List Expr) (lines : List Stmt) (desc : Description)
  | block (statements : List Stmt) (start stop : Position) (desc : Description)

end

instance : Inhabited Expr := ⟨.row [] []⟩

/-- A whole pattern with the positions of its first and last token. -/
structure Block where
  statements : List Stmt
  start : Position
  stop : Position
  desc : Description

namespace Measure

/-- A unit named by letters, in any case. -/
def ofName? (name : String) : Option Measure :=
  let word := name.toList.map Char.toLower
  if word = ['m', 'm'] then some millimetres
  else if word = ['c', 'm'] then some centimetres
  else none

end Measure

/-- The position of an expression; a row has that of its first element. -/
def Expr.position : Expr → Position
  | .ident id => id.position
  | .size s => s.position
  | .stitch p _ _ => p
  | .row [] _ => .start
  | .row (e :: _) _ => e.position
  | .group p _ _ _ => p

namespace Stmt

def desc : Stmt → Description
  | synonym _ _ d => d
  | define _ _ d => d
  | row _ _ d => d
  | group _ _ _ _ d => d
  | block _ _ _ d => d

/-- The same statement under another description. -/
def withDesc (d : Description) : Stmt → Stmt
  | synonym lhs rhs _ => synonym lhs rhs d
  | define lhs rhs _ => define lhs rhs d
  | row elements args _ => row elements args d
  | group lbrace rbrace args lines _ => group lbrace rbrace args lines d
  | block statements start stop _ => block statements start stop d

end Stmt

/-- A block within a block. -/
def Block.toStmt (b : Block) : Stmt := .block b.statements b.start b.stop b.desc

end KnittingPattern
