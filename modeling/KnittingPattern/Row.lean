/-! # Rows as fragments

A row that is laid out is a list of fragments: stitches, an opening brace for a part that repeats,
and a closing brace with the count behind it.  `Row.text` writes the row on one line. -/

namespace KnittingPattern

/-- A fragment that opens a part of a row. -/
def Fragment.opening : String := "\x7b"

/-- A fragment that closes a part of a row, with the number of times to knit it. -/
def Fragment.closing (times : String) : String :=
  if times = "" then "\x7d" else "\x7d " ++ times

namespace Fragment

def isOpening (f : String) : Bool := f == opening

def isClosing (f : String) : Bool := f.toList.head? == some '}'

/-- A fragment that is knitted, not a brace. -/
def isStitch (f : String) : Bool := !isOpening f && !isClosing f

end Fragment

namespace Row

/-- A comma stands behind a fragment, but not behind an opening brace, before a closing one, or at
the end of the row. -/
def comma (fragment : String) : List String → Bool
  | [] => false
  | next :: _ => !Fragment.isOpening fragment && !Fragment.isClosing next

/-- The fragments with the commas behind them. -/
def withCommas : List String → List String
  | [] => []
  | f :: fs => (if comma f fs then f ++ "," else f) :: withCommas fs

/-- A row on one line. -/
def text (row : List String) : String := " ".intercalate (withCommas row)

/-- What is written between a fragment and the row behind it. -/
def separator (fragment : String) (rest : List String) : String :=
  (if comma fragment rest then "," else "") ++ if rest.isEmpty then "" else " "

@[simp] theorem text_nil : text [] = "" := rfl

theorem text_cons (f : String) (fs : List String) :
    text (f :: fs) = f ++ (separator f fs ++ text fs) := by
  have hfragment : (if comma f fs then f ++ "," else f) = f ++ if comma f fs then "," else "" := by
    split <;> simp
  cases fs with
  | nil => simp [text, withCommas, separator, comma]
  | cons g gs =>
    simp only [text, withCommas, String.intercalate_cons_cons, separator, hfragment]
    simp [String.append_assoc]

end Row
end KnittingPattern
