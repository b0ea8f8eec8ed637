import KnittingPattern.Pattern.Tree

/-! # What names stand for

The synonyms and definitions of a pattern are collected in the order of the text, those in groups
and in definitions included; bracket lists hold none.  The last one of a name counts.  A synonym
changes how a name is written and is followed once.  Main definitions: `Names.ofBlock`,
`Names.rendering`, and the texts of sizes and bracket lists. -/

namespace KnittingPattern

/-- The synonyms and definitions of a pattern, in their order. -/
structure Names where
  synonyms : List (String × Identifier)
  definitions : List (String × Expr)

namespace Names

/-- No name stands for anything else. -/
def none : Names := ⟨[], []⟩

def append (a b : Names) : Names := ⟨a.synonyms ++ b.synonyms, a.definitions ++ b.definitions⟩

instance : Append Names := ⟨append⟩

mutual

/-- What a statement gives names to. -/
def ofStmt : Stmt → Names
  | .synonym lhs rhs _ => ⟨[(lhs.name, rhs)], []⟩
  | .define lhs rhs _ => append ⟨[], [(lhs.name, rhs)]⟩ (ofExpr rhs)
  | .row elements _ _ => ofExprs elements
  | .group _ _ _ lines _ => ofStmts lines
  | .block statements _ _ _ => ofStmts statements

def ofStmts : List Stmt → Names
  | [] => none
  | s :: ss => append (ofStmt s) (ofStmts ss)

def ofExpr : Expr → Names
  | .row elements _ => ofExprs elements
  | .group _ _ _ lines => ofStmts lines
  | .ident _ => none
  | .size _ => none
  | .stitch _ _ _ => none

def ofExprs : List Expr → Names
  | [] => none
  | e :: es => append (ofExpr e) (ofExprs es)

end

/-- What a pattern gives names to. -/
def ofBlock (b : Block) : Names := ofStmts b.statements

/-- The last entry of a name. -/
def last? {α : Type} (name : String) (entries : List (String × α)) : Option α :=
  (entries.reverse.find? fun e => e.1 = name).map Prod.snd

/-- What a name is a synonym of. -/
def synonym? (n : Names) (name : String) : Option Identifier := last? name n.synonyms

/-- What a name is defined as. -/
def definition? (n : Names) (name : String) : Option Expr := last? name n.definitions

/-- How many names have an entry. -/
def count {α : Type} (entries : List (String × α)) : Nat :=
  (entries.map Prod.fst).eraseDups.length

/-- How a name is written. -/
def rendering (n : Names) (id : Identifier) : String :=
  match n.synonym? id.name with
  | some other => other.name
  | Option.none => id.name

end Names

/-- How a measure is written behind an amount. -/
def Measure.mark : Measure → String
  | count => ""
  | millimetres => "mm"
  | centimetres => "cm"
  | inches => "\""
  | feet => "'"
  | toEnd => ""

def Amount.text (names : Names) : Amount → String
  | whole n => toString n
  | decimal x => x.text2
  | named id => names.rendering id
  | unstated => ""

namespace Size

/-- The rest of the row is a size without an amount. -/
def isToEnd (s : Size) : Bool := s.measure == .toEnd

def text (names : Names) (s : Size) : String :=
  if s.isToEnd then if s.before then "before end of row" else "to end of row"
  else
    let quantity := s.amount.text names ++ s.measure.mark
    if s.before then "until " ++ quantity else quantity

end Size

/-- How an argument is written; only names and sizes are. -/
def Expr.text (names : Names) : Expr → String
  | .ident id => names.rendering id
  | .size s => s.text names
  | _ => ""

namespace Brackets

/-- How each argument is written. -/
def texts (names : Names) (args : List Expr) : List String := args.map (Expr.text names)

/-- All arguments as one phrase. -/
def phrase (names : Names) (args : List Expr) : String := " ".intercalate (texts names args)

end Brackets
end KnittingPattern
