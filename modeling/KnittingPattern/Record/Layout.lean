import KnittingPattern.Pattern.Names
import KnittingPattern.Record

/-! # Laying out a pattern

A pattern is laid out as records.  A stitch that has a definition is replaced by it wherever it
stands.  A definition that is a group cuts the row it is used in: what stands before the group and
behind it are rows of their own, and a row within a row cannot be cut.  A definition cannot be used
within itself.  Main definition: `Block.records`. -/

namespace KnittingPattern

inductive LayoutError where
  /-- A name stands for an expression and has no definition. -/
  | undefined (id : Identifier)
  /-- A definition is used within itself. -/
  | circular (id : Identifier)
  /-- A group stands in a row within a row; `name` is the definition it comes from. -/
  | groupInRow (name : String) (position : Position)
deriving DecidableEq

namespace LayoutError

def message : LayoutError → String
  | undefined id => id.position.text ++ ": no assignment found for identifier " ++ id.name
  | circular id => id.position.text ++ ": macro " ++ id.name ++ " expands to itself"
  | groupInRow name position =>
    position.text ++ ": group macro " ++ name ++ " cannot be used inside an inline row"

end LayoutError

/-- What the parts of a row become. -/
inductive Piece where
  | fragment (text : String)
  | args (texts : List String)
  | records (rs : List Record)

namespace Piece

/-- A row that is not empty, under the description and arguments of its statement. -/
def rowRecords (desc args : List String) (c : Content) : List Record :=
  if c.isEmpty then [] else [.startRow desc args, .content c, .endRow]

/-- The rows that the pieces of a row statement make, with the records between them; `c` is the row
begun. -/
def assemble (desc args : List String) : Content → List Piece → List Record
  | c, [] => rowRecords desc args c
  | c, .fragment f :: ps => assemble desc args (c.addFragment f) ps
  | c, .args ts :: ps => assemble desc args (c.addArgs ts) ps
  | c, .records rs :: ps => rowRecords desc args c ++ (rs ++ assemble desc args .empty ps)

end Piece

namespace Layout

/-- The records of a whole row statement, made of its pieces. -/
def statementRecords (desc : Description) (args : List String) (ps : List Piece) : List Record :=
  Piece.assemble desc.lines args .empty (.args args :: ps)

/-- The records of a group, made of those of its statements. -/
def groupRecords (desc args : List String) (rs : List Record) : List Record :=
  .startGroup desc args :: (rs ++ [.endGroup])

/-- The records of a block, made of those of its statements. -/
def blockRecords (desc : Description) (rs : List Record) : List Record :=
  .startBlock desc.lines :: (rs ++ [.endBlock])

/-- The fragment of a stitch that has no definition. -/
def stitchFragment (names : Names) (name : Identifier) (args : List Expr) : String :=
  let times := Brackets.phrase names args
  if times = "" then names.rendering name else names.rendering name ++ " " ++ times

/-- A row that is nothing but one name without arguments. -/
def loneName? (elements args : List Expr) : Option Identifier :=
  match elements, args with
  | [.ident id], [] => some id
  | [.stitch _ name []], [] => some name
  | _, _ => none

/-- The name that a row statement consists of, with the elements and arguments of its definition, if
that is a row with arguments.  The statement then is that row. -/
def loneRow? (names : Names) (elements args : List Expr) :
    Option (Identifier × List Expr × List Expr) := do
  let id ← loneName? elements args
  match ← names.definition? id.name with
  | .row elements (arg :: args) => some (id, elements, arg :: args)
  | _ => none

/-- What is known at a place of the pattern: what names stand for, the definitions the place is in,
innermost first, and how the use of a definition in a row is laid out.  `inline` says that the row
is within a row. -/
structure Place where
  names : Names
  within : List String
  expand : (inline : Bool) → Identifier → Expr → Except LayoutError (List Piece)

/-- The pieces of a row within a row: its fragments between braces. -/
def braced (names : Names) (args : List Expr) (ps : List Piece) : List Piece :=
  .fragment Fragment.opening ::
    (ps ++ [.fragment (Fragment.closing (Brackets.phrase names args))])

mutual

/-- The pieces of an element of a row. -/
def element (p : Place) (inline : Bool) : Expr → Except LayoutError (List Piece)
  | .ident id =>
    match p.names.definition? id.name with
    | some e => p.expand inline id e
    | none => .error (.undefined id)
  | .size _ => .ok []
  | .stitch _ name args =>
    match p.names.definition? name.name with
    | some e => do return .args (Brackets.texts p.names args) :: (← p.expand inline name e)
    | none => .ok [.fragment (stitchFragment p.names name args)]
  | .row es args => do return braced p.names args (← elements p true es)
  | .group lbrace _ args lines =>
    if inline then .error (.groupInRow (p.within.head?.getD "") lbrace)
    else do
      return [.records (groupRecords [] (Brackets.texts p.names args) (← statements p lines))]

def elements (p : Place) (inline : Bool) : List Expr → Except LayoutError (List Piece)
  | [] => .ok []
  | e :: es => do return (← element p inline e) ++ (← elements p inline es)

/-- The records of a statement; synonyms and definitions have none. -/
def statement (p : Place) : Stmt → Except LayoutError (List Record)
  | .synonym _ _ _ => .ok []
  | .define _ _ _ => .ok []
  | .row es args desc =>
    match loneRow? p.names es args with
    | some (id, es', args') => do
      return statementRecords desc (Brackets.texts p.names args')
        (← p.expand false id (.row es' []))
    | none => do
      return statementRecords desc (Brackets.texts p.names args) (← elements p false es)
  | .group _ _ args lines desc => do
    return groupRecords desc.lines (Brackets.texts p.names args) (← statements p lines)
  | .block ss _ _ desc => do return blockRecords desc (← statements p ss)

def statements (p : Place) : List Stmt → Except LayoutError (List Record)
  | [] => .ok []
  | s :: ss => do return (← statement p s) ++ (← statements p ss)

end

/-- The pieces of a definition where it is used: a row without arguments goes into the row around
it, all else is an element of that row. -/
def definitionPieces (p : Place) (inline : Bool) : Expr → Except LayoutError (List Piece)
  | .row es [] => elements p inline es
  | e => element p inline e

/-- The use of a definition within others.  `unused` bounds how many definitions are not in use: as
none is used within itself, it never runs out. -/
def expand (names : Names) (unused : Nat) (within : List String) (inline : Bool) (id : Identifier)
    (e : Expr) : Except LayoutError (List Piece) :=
  if id.name ∈ within then .error (.circular id)
  else
    match unused with
    | 0 => .error (.circular id)
    | unused + 1 =>
      definitionPieces ⟨names, id.name :: within, expand names unused (id.name :: within)⟩ inline e

/-- A place outside all definitions. -/
def outside (names : Names) : Place := ⟨names, [], expand names names.definitions.length []⟩

end Layout

/-- Lays out a pattern under given names. -/
def Block.recordsUnder (names : Names) (b : Block) : Except LayoutError (List Record) :=
  (Layout.statements (Layout.outside names) b.statements).map (Layout.blockRecords b.desc)

/-- Lays out a pattern. -/
def Block.records (b : Block) : Except LayoutError (List Record) := b.recordsUnder (Names.ofBlock b)

end KnittingPattern
