import KnittingPattern.Text.Extender
import KnittingPattern.Text.Picture

/-! # Columns

How many columns of a terminal a grapheme takes.  Its characters add up, except that a selector, a
skin tone or a joiner turns several of them into one picture of two columns, and that a subscript
consonant takes no column.  So the characters are read from the last one to the first, and what has
been read says how the next one counts.  Main definition: `Columns.ofText`. -/

namespace KnittingPattern.Columns

/-- Characters other than extenders that take no column: most format characters, the vowels and
final consonants of Hangul, and the letters that are written above the next one. -/
def hiddenRanges : List (Nat × Nat) :=
  [(0xAD, 0xAD), (0x605, 0x605), (0x61C, 0x61C), (0x70F, 0x70F), (0x890, 0x891), (0x8E2, 0x8E2),
    (0xD4E, 0xD4E), (0x1160, 0x11FF), (0x180E, 0x180E), (0x200B, 0x200B), (0x200D, 0x200F),
    (0x202A, 0x202E), (0x2060, 0x206F), (0x3164, 0x3164), (0xA8FA, 0xA8FA), (0xD7B0, 0xD7C6),
    (0xD7CB, 0xD7FB), (0xFEFF, 0xFEFF), (0xFFA0, 0xFFA0), (0xFFF0, 0xFFF8), (0x111C2, 0x111C3),
    (0x1171E, 0x1171E), (0x1193F, 0x1193F), (0x11941, 0x11941), (0x11A3A, 0x11A3A),
    (0x11A84, 0x11A89), (0x11D46, 0x11D46), (0x11F02, 0x11F02), (0x1BCA0, 0x1BCA3),
    (0x1D173, 0x1D17A), (0xE0000, 0xE001F), (0xE0080, 0xE00FF), (0xE01F0, 0xE0FFF)]

/-- Extenders that take columns like any other character. -/
def visibleRanges : List (Nat × Nat) :=
  [(0x897, 0x897), (0x1715, 0x1715), (0x1734, 0x1734), (0x1ACF, 0x1ADD), (0x1AE0, 0x1AEB),
    (0x1B44, 0x1B44), (0x1BAA, 0x1BAA), (0x1BF2, 0x1BF3), (0x2D7F, 0x2D7F), (0xA953, 0xA953),
    (0xA9C0, 0xA9C0), (0x10D69, 0x10D6D), (0x10EFA, 0x10EFC), (0x111C0, 0x111C0),
    (0x11235, 0x11235), (0x1134D, 0x1134D), (0x113B8, 0x113B8), (0x113BB, 0x113C0),
    (0x113C2, 0x113C2), (0x113C5, 0x113C5), (0x113C7, 0x113C9), (0x113CE, 0x113D0),
    (0x113D2, 0x113D2), (0x113E1, 0x113E2), (0x116B6, 0x116B6), (0x1193D, 0x1193D),
    (0x11B60, 0x11B60), (0x11B62, 0x11B64), (0x11B66, 0x11B66), (0x11F41, 0x11F41),
    (0x11F5A, 0x11F5A), (0x1611E, 0x16129), (0x1612D, 0x1612F), (0x16FF0, 0x16FF1),
    (0x1D166, 0x1D166), (0x1D16D, 0x1D16D), (0x1E5EE, 0x1E5EF), (0x1E6E3, 0x1E6E3),
    (0x1E6E6, 0x1E6E6), (0x1E6EE, 0x1E6EF), (0x1E6F5, 0x1E6F5)]

/-- Characters that take two columns. -/
def wideRanges : List (Nat × Nat) :=
  [(0x1100, 0x115F), (0x17A4, 0x17A4), (0x231A, 0x231B), (0x2329, 0x232A), (0x23E9, 0x23EC),
    (0x23F0, 0x23F0), (0x23F3, 0x23F3), (0x25FD, 0x25FE), (0x2614, 0x2615), (0x2648, 0x2653),
    (0x267F, 0x267F), (0x2693, 0x2693), (0x26A1, 0x26A1), (0x26AA, 0x26AB), (0x26BD, 0x26BE),
    (0x26C4, 0x26C5), (0x26CE, 0x26CE), (0x26D4, 0x26D4), (0x26EA, 0x26EA), (0x26F2, 0x26F3),
    (0x26F5, 0x26F5), (0x26FA, 0x26FA), (0x26FD, 0x26FD), (0x2705, 0x2705), (0x270A, 0x270B),
    (0x2728, 0x2728), (0x274C, 0x274C), (0x274E, 0x274E), (0x2753, 0x2755), (0x2757, 0x2757),
    (0x2795, 0x2797), (0x27B0, 0x27B0), (0x27BF, 0x27BF), (0x2B1B, 0x2B1C), (0x2B50, 0x2B50),
    (0x2B55, 0x2B55), (0x2E80, 0x2E99), (0x2E9B, 0x2EF3), (0x2F00, 0x2FD5), (0x2FF0, 0x3029),
    (0x3030, 0x303E), (0x3041, 0x3096), (0x309B, 0x30FF), (0x3105, 0x312F), (0x3131, 0x3163),
    (0x3165, 0x318E), (0x3190, 0x31E3), (0x31EF, 0x321E), (0x3220, 0x3247), (0x3250, 0x4DBF),
    (0x4E00, 0xA48C), (0xA490, 0xA4C6), (0xA960, 0xA97C), (0xAC00, 0xD7A3), (0xF900, 0xFAFF),
    (0xFE10, 0xFE19), (0xFE30, 0xFE52), (0xFE54, 0xFE66), (0xFE68, 0xFE6B), (0xFF01, 0xFF60),
    (0xFFE0, 0xFFE6), (0x16FE0, 0x16FE3), (0x16FF0, 0x16FF1), (0x17000, 0x187F7),
    (0x18800, 0x18CD5), (0x18D00, 0x18D08), (0x1AFF0, 0x1AFF3), (0x1AFF5, 0x1AFFB),
    (0x1AFFD, 0x1AFFE), (0x1B000, 0x1B122), (0x1B132, 0x1B132), (0x1B150, 0x1B152),
    (0x1B155, 0x1B155), (0x1B164, 0x1B167), (0x1B170, 0x1B2FB), (0x1F004, 0x1F004),
    (0x1F0CF, 0x1F0CF), (0x1F18E, 0x1F18E), (0x1F191, 0x1F19A), (0x1F200, 0x1F202),
    (0x1F210, 0x1F23B), (0x1F240, 0x1F248), (0x1F250, 0x1F251), (0x1F260, 0x1F265),
    (0x1F300, 0x1F320), (0x1F32D, 0x1F335), (0x1F337, 0x1F37C), (0x1F37E, 0x1F393),
    (0x1F3A0, 0x1F3CA), (0x1F3CF, 0x1F3D3), (0x1F3E0, 0x1F3F0), (0x1F3F4, 0x1F3F4),
    (0x1F3F8, 0x1F43E), (0x1F440, 0x1F440), (0x1F442, 0x1F4FC), (0x1F4FF, 0x1F53D),
    (0x1F54B, 0x1F54E), (0x1F550, 0x1F567), (0x1F57A, 0x1F57A), (0x1F595, 0x1F596),
    (0x1F5A4, 0x1F5A4), (0x1F5FB, 0x1F64F), (0x1F680, 0x1F6C5), (0x1F6CC, 0x1F6CC),
    (0x1F6D0, 0x1F6D2), (0x1F6D5, 0x1F6D7), (0x1F6DC, 0x1F6DF), (0x1F6EB, 0x1F6EC),
    (0x1F6F4, 0x1F6FC), (0x1F7E0, 0x1F7EB), (0x1F7F0, 0x1F7F0), (0x1F90C, 0x1F93A),
    (0x1F93C, 0x1F945), (0x1F947, 0x1F9FF), (0x1FA70, 0x1FA7C), (0x1FA80, 0x1FA88),
    (0x1FA90, 0x1FABD), (0x1FABF, 0x1FAC5), (0x1FACE, 0x1FADB), (0x1FAE0, 0x1FAE8),
    (0x1FAF0, 0x1FAF8), (0x20000, 0x2FFFD), (0x30000, 0x3FFFD)]

/-- The character that turns the consonant behind it into a subscript. -/
def subscriptSign : Char := '\u17d2'

/-- The consonants that have a subscript form. -/
def isSubscriptConsonant (c : Char) : Bool :=
  inRanges [(0x1780, 0x1782), (0x1784, 0x1787), (0x1789, 0x178C), (0x178E, 0x1793),
    (0x1795, 0x1798), (0x179B, 0x179D), (0x17A0, 0x17A0), (0x17A2, 0x17A2), (0x17A7, 0x17A7),
    (0x17AB, 0x17AC), (0x17AF, 0x17AF)] c

/-- Extenders that are not to be seen at all, and the joiner. -/
def isInvisible (c : Char) : Bool :=
  inRanges [(0x34F, 0x34F), (0x17B4, 0x17B5), (0x180B, 0x180D), (0x180F, 0x180F),
    (0x200C, 0x200D), (0xFE00, 0xFE0F), (0xE0020, 0xE007F), (0xE0100, 0xE01EF)] c

/-- How many columns a character takes by itself.  A line feed takes none, and all other control
characters take one. -/
def ofChar (c : Char) : Nat :=
  if c = '\n' then 0
  else if c.toNat < 0xA0 then 1
  else if c = '\u17d8' then 3
  else if inRanges hiddenRanges c || (isExtender c && !inRanges visibleRanges c) then 0
  else if 0x1100 ≤ c.toNat && inRanges wideRanges c then 2
  else 1

/-- What the characters behind the next one amount to. -/
inductive Behind where
  /-- nothing that matters -/
  | plain
  | lineFeed
  | textSelector
  | pictureSelector
  | tone
  | picture
  /-- a joiner with a picture behind it, after a selector if `selected` -/
  | joined (selected : Bool)
  /-- the same behind the frame of a key -/
  | joinedKey (selected : Bool)
  /-- the same behind the end of a tag and so many letters, or digits, of it -/
  | joinedTag (letters : Nat)
  | joinedNumber (digits : Nat)
  | subscriptConsonant
deriving DecidableEq

namespace Behind

/-- What a character amounts to by itself. -/
def ofChar (c : Char) : Behind :=
  if c = '\n' then lineFeed
  else if c = KnittingPattern.textSelector then textSelector
  else if c = KnittingPattern.pictureSelector then pictureSelector
  else if isTone c then tone
  else if isColoured c then picture
  else if isSubscriptConsonant c then subscriptConsonant
  else plain

/-- The selector before a joiner belongs to the picture before that. -/
def select : Behind → Behind
  | joined _ => joined true
  | joinedKey _ => joinedKey true
  | subscriptConsonant => subscriptConsonant
  | _ => pictureSelector

/-- Asks for a picture of the character before it; `some` says whether that one is joined. -/
def asksPicture? : Behind → Option Bool
  | pictureSelector => some false
  | joined true => some true
  | joinedKey true => some true
  | _ => none

/-- The letters and digits of tags. -/
def isTagLetter (c : Char) : Bool := 0xE0061 ≤ c.toNat && c.toNat ≤ 0xE007A

def isTagDigit (c : Char) : Bool := 0xE0030 ≤ c.toNat && c.toNat ≤ 0xE0039

/-- The end of a tag. -/
def tagEnd : Char := Char.ofNat 0xE007F

/-- The flag that tags are put on. -/
def flag : Char := Char.ofNat 0x1F3F4

/-- A character that is one with what stands behind it, and what both amount to. -/
def merge? : Behind → Char → Option Behind
  | subscriptConsonant, c => if isInvisible c then some subscriptConsonant else none
  | tone, c =>
    if isTonable c then some picture else if c = joiner then some (joined false) else none
  | picture, c => if c = joiner then some (joined false) else none
  | joined _, c =>
    if c = '\u20e3' then some (joinedKey false)
    else if isTone c then some tone
    else if c = tagEnd then some (joinedTag 0)
    else if isColoured c then some picture
    else none
  | joinedTag n, c =>
    if isTagLetter c ∧ n < 6 then some (joinedTag (n + 1))
    else if isTagDigit c ∧ n < 5 then some (joinedNumber 1)
    else if c = flag ∧ 3 ≤ n then some picture
    else none
  | joinedNumber n, c =>
    if isTagDigit c ∧ n < 3 then some (joinedNumber (n + 1))
    else if c = flag ∧ n = 3 then some picture
    else none
  | _, _ => none

end Behind

/-- Reads the character before those that take `total` columns. -/
def step (behind : Behind) (total : Nat) (c : Char) : Behind × Nat :=
  let alone := (Behind.ofChar c, total + ofChar c)
  match behind.asksPicture? with
  | some isJoined =>
    if isSelectable c then (.picture, if isJoined then total else total + 2) else alone
  | none =>
    if behind = .lineFeed ∧ c = '\r' then (.plain, total)
    else if c = pictureSelector then (behind.select, total)
    else if c = textSelector then
      (if behind = .subscriptConsonant then behind else .textSelector, total)
    else if behind = .textSelector ∧ isFading c then (.plain, total + 1)
    else if behind = .subscriptConsonant ∧ c = subscriptSign then (.plain, total - 1)
    else
      match behind.merge? c with
      | some b => (b, total)
      | none => alone

/-- The columns of characters given last one first, before others that take `total` columns. -/
def sum (behind : Behind) (total : Nat) : List Char → Nat
  | [] => total
  | c :: cs => sum (step behind total c).1 (step behind total c).2 cs

/-- How many columns a grapheme takes. -/
def ofText (s : String) : Nat := sum .plain 0 s.toList.reverse

end KnittingPattern.Columns
