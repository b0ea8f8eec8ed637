import KnittingPattern.Text.Position

/-! # Descriptions

A description is the comment lines that stand before a statement or behind it.  `Description.lines`
is its normal form: no blank line begins it, no two follow each other, and one ends it. -/

namespace KnittingPattern

/-- One comment as it is written, or the blank between two paragraphs. -/
structure Comment where
  position : Position
  text : String
deriving DecidableEq

structure Description where
  comments : List Comment
deriving DecidableEq

namespace Description

/-- No comments. -/
def none : Description := ⟨[]⟩

instance : Inhabited Description := ⟨none⟩

/-- Adds a comment to the last paragraph. -/
def push (d : Description) (c : Comment) : Description := ⟨d.comments ++ [c]⟩

/-- Adds a paragraph; an empty comment divides it from what stands before. -/
def extend (d e : Description) : Description :=
  match d.comments, e.comments with
  | _, [] => d
  | [], cs => ⟨cs⟩
  | ds, c :: cs => ⟨ds ++ ⟨c.position, ""⟩ :: c :: cs⟩

/-- Blanks at the ends of a comment. -/
def isMargin (c : Char) : Bool := c == '\n' || c == '\t' || c == ' '

/-- Drops the margins at both ends. -/
def trim (cs : List Char) : List Char :=
  ((cs.dropWhile isMargin).reverse.dropWhile isMargin).reverse

/-- A comment without its mark and its margins. -/
def body (text : String) : String :=
  String.ofList (trim (match text.toList with | ';' :: cs => cs | cs => cs))

/-- Keeps a blank line only behind a line that is not blank; `blank` says whether the line before
is, or is missing.  A blank line is added behind a last line that is not blank. -/
def collapse (blank : Bool) : List String → List String
  | [] => if blank then [] else [""]
  | l :: ls =>
    if l = "" then if blank then collapse true ls else "" :: collapse true ls
    else l :: collapse false ls

/-- The lines of a description. -/
def lines (d : Description) : List String := collapse true (d.comments.map fun c => body c.text)

@[simp] theorem lines_none : none.lines = [] := rfl

end Description
end KnittingPattern
