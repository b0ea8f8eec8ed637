import KnittingPattern.Text.Extender
import KnittingPattern.Text.Picture
import KnittingPattern.Text.Syllable

/-! # Graphemes

A terminal shows a text grapheme by grapheme: a character together with all that joins it.  Main
definition: `Grapheme.ofText`. -/

namespace KnittingPattern

/-- Control and format characters, which stand alone. -/
def controlRanges : List (Nat × Nat) :=
  [(0x0, 0x1F), (0x7F, 0x9F), (0xAD, 0xAD), (0x61C, 0x61C), (0x180E, 0x180E), (0x200B, 0x200B),
    (0x200E, 0x200F), (0x2028, 0x202E), (0x2060, 0x206F), (0xFEFF, 0xFEFF), (0xFFF0, 0xFFFB),
    (0x13430, 0x1343F), (0x1BCA0, 0x1BCA3), (0x1D173, 0x1D17A), (0xE0000, 0xE001F),
    (0xE0080, 0xE00FF), (0xE01F0, 0xE0FFF)]

def isControl (c : Char) : Bool := inRanges controlRanges c

namespace Grapheme

/-- Whether a character extends whatever stands before it, without a place of its own. -/
def isExtending (c : Char) : Bool := isExtender c || isTone c

/-- Whether a consonant stands behind these characters, last one first, with linkers and no more
than extenders between. -/
def isLinked (linked : Bool) : List Char → Bool
  | [] => false
  | b :: bs =>
    if isLinker b then isLinked true bs
    else if b = joiner ∨ (isExtending b ∧ b ≠ '\u200c') then isLinked linked bs
    else linked && isConsonant b

/-- The last of these characters, given last one first, is a picture with extenders behind it. -/
def endsInPicture (before : List Char) : Bool := (before.dropWhile isExtending).head?.any isPicture

/-- The letters of a region at the end want another one. -/
def wantsRegionLetter (before : List Char) : Bool :=
  (before.takeWhile isRegionLetter).length % 2 = 1

/-- Two parts of one Hangul syllable. -/
def joinsSyllable (b c : Char) : Bool :=
  match HangulPart.ofChar? b, HangulPart.ofChar? c with
  | some p, some q => p.follows q
  | _, _ => false

/-- A character goes on with a grapheme, whose characters are given last one first. -/
def joins (before : List Char) (c : Char) : Bool :=
  match before with
  | [] => false
  | b :: bs =>
    if isControl b || isControl c then b == '\r' && c == '\n'
    else
      isExtending c || c == joiner || isSpacing c || isLeading b || joinsSyllable b c ||
        (isConsonant c && isLinked false before) ||
        (isPicture c && b == joiner && endsInPicture bs) ||
        (isRegionLetter c && wantsRegionLetter before)

/-- The graphemes of a text; `before` is the one begun, last character first. -/
def cut (before : List Char) : List Char → List (List Char)
  | [] => if before.isEmpty then [] else [before.reverse]
  | c :: cs =>
    if joins before c then cut (c :: before) cs
    else if before.isEmpty then cut [c] cs
    else before.reverse :: cut [c] cs

/-- The graphemes of a text, in their order. -/
def ofText (s : String) : List String := (cut [] s.toList).map String.ofList

end Grapheme
end KnittingPattern
