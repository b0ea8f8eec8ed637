import KnittingPattern.Row

/-! # Records

A pattern laid out is a list of records: content records hold the rows, and between them stand the
starts and ends of blocks, groups and rows, each start with its description and its arguments.
`Record.listing` writes records for a reader. -/

namespace KnittingPattern

/-- A row laid out.  The arguments are those of the row and of the definitions used in it. -/
structure Content where
  desc : List String
  args : List String
  row : List String
deriving DecidableEq

namespace Content

/-- Nothing laid out yet. -/
def empty : Content := ⟨[], [], []⟩

def isEmpty (c : Content) : Bool := c.desc.isEmpty && c.args.isEmpty && c.row.isEmpty

/-- Adds a fragment to the row. -/
def addFragment (c : Content) (fragment : String) : Content := ⟨c.desc, c.args, c.row ++ [fragment]⟩

/-- Adds arguments. -/
def addArgs (c : Content) (args : List String) : Content := ⟨c.desc, c.args ++ args, c.row⟩

end Content

inductive Record where
  | startBlock (desc : List String)
  | endBlock
  | startGroup (desc args : List String)
  | endGroup
  | startRow (desc args : List String)
  | endRow
  | content (c : Content)
deriving DecidableEq

namespace Record

/-- The arguments of a start, if there are any. -/
def argsNote (args : List String) : String :=
  if args.isEmpty then "" else " (" ++ ", ".intercalate args ++ ")"

/-- The lines of a description that are not blank. -/
def descLines (desc : List String) : String :=
  String.join ((desc.filter fun l => l ≠ "").map fun l => "  ; " ++ l ++ "\n")

/-- How one record is listed. -/
def text : Record → String
  | startBlock desc => "START: BLOCK\n" ++ descLines desc
  | endBlock => "END: BLOCK\n"
  | startGroup desc args => "START: GROUP" ++ argsNote args ++ "\n" ++ descLines desc
  | endGroup => "END: GROUP\n"
  | startRow desc args => "START: ROW" ++ argsNote args ++ "\n" ++ descLines desc
  | endRow => "END: ROW\n"
  | content c =>
    (if c.row.isEmpty then "" else "row: " ++ Row.text c.row ++ "\n") ++
      if c.args.isEmpty then "" else " args: " ++ ", ".intercalate c.args ++ "\n"

/-- A list of records as a text. -/
def listing (rs : List Record) : String := String.join (rs.map text)

end Record
end KnittingPattern
