import KnittingPattern.Json.Lexeme
import KnittingPattern.Proofs.BinaryText

/-! # The lexemes of written JSON

A value that is written has its lexemes in the order of its parts, whatever blanks a layout puts
between them.  Main theorem: `Json.scan?_write`. -/

namespace KnittingPattern

namespace Decimal

/-- No number but zero begins with a zero. -/
theorem head_toDigits_ne_zero {n : Nat} (h : n ≠ 0) : (Nat.toDigits 10 n).head? ≠ some '0' := by
  induction n using Nat.strongRecOn with
  | _ n ih =>
    by_cases hn : n < 10
    · rw [Nat.toDigits_of_lt_base hn]
      have : ∀ m < 10, m ≠ 0 → [m.digitChar].head? ≠ some '0' := by decide
      exact this n hn h
    · have hn : 10 ≤ n := Nat.not_lt.mp hn
      rw [Nat.toDigits_of_base_le (by decide) hn]
      have hq := ih (n / 10) (by omega) (by omega)
      cases hd : Nat.toDigits 10 (n / 10) with
      | nil => exact absurd hd Nat.toDigits_ne_nil
      | cons d ds => rwa [hd] at hq

end Decimal

namespace Json

mutual

/-- Every part of the value is what its text says: no number is kept as it is written, and naturals
fit into 64 bits. -/
def isPlain : Json → Bool
  | natural n => n < 2 ^ 64
  | number _ => false
  | unreadable => false
  | array items => arePlain items
  | object fields => havePlain fields
  | _ => true

def arePlain : List Json → Bool
  | [] => true
  | j :: js => j.isPlain && arePlain js

def havePlain : List (String × Json) → Bool
  | [] => true
  | (_, j) :: fs => j.isPlain && havePlain fs

end

mutual

/-- The lexemes of a value, before others. -/
def lexemes (j : Json) (rest : List Lexeme) : List Lexeme :=
  match j with
  | text s => .text (some s) :: rest
  | array [] => .leftBracket :: .rightBracket :: rest
  | array (j :: js) => .leftBracket :: lexemes j (itemLexemes js (.rightBracket :: rest))
  | object [] => .leftBrace :: .rightBrace :: rest
  | object ((k, j) :: fs) =>
    .leftBrace :: .text (some k) :: .colon :: lexemes j (fieldLexemes fs (.rightBrace :: rest))
  | j => .atom j :: rest

/-- The lexemes of the items after the first one. -/
def itemLexemes (js : List Json) (rest : List Lexeme) : List Lexeme :=
  match js with
  | [] => rest
  | j :: js => .comma :: lexemes j (itemLexemes js rest)

/-- The lexemes of the fields after the first one. -/
def fieldLexemes (fs : List (String × Json)) (rest : List Lexeme) : List Lexeme :=
  match fs with
  | [] => rest
  | (k, j) :: fs => .comma :: .text (some k) :: .colon :: lexemes j (fieldLexemes fs rest)

end

namespace Lexeme

/-- The piece that a character of a text is written as. -/
def pieceOf (c : Char) : Piece :=
  if c.toNat < 32 ∧ c ∉ ['\x08', '\t', '\n', '\x0c', '\r'] then .unit c.toNat else .char c

theorem pieces?_escape (c : Char) (cs : List Char) :
    pieces? (escape c ++ cs) = (pieces? cs).map fun p => (pieceOf c :: p.1, p.2) := by
  have hhex : ∀ n < 32, Hexadecimal.ofDigits? ['0', '0', hexDigit (n / 16), hexDigit (n % 16)] =
      some n := by decide
  unfold escape
  split_ifs with h1 h2 h3 h4 h5 h6 h7 h8
  any_goals (subst c; cases h : pieces? cs <;> simp [pieces?, escaped?, pieceOf, h])
  · cases h : pieces? cs <;> simp [pieces?, hhex _ h8, pieceOf, h, h3, h4, h5, h6, h7, h8]
  · cases h : pieces? cs <;> simp [pieces?, pieceOf, h, h2, h8]

theorem pieces?_quoted (cs rest : List Char) :
    pieces? (cs.flatMap escape ++ '"' :: rest) = some (cs.map pieceOf, rest) := by
  induction cs with
  | nil => simp [pieces?]
  | cons c cs ih =>
    rw [List.flatMap_cons, List.append_assoc, pieces?_escape, ih]
    rfl

/-- A unit that is no half of a pair is a character. -/
theorem join?_unit {n : Nat} (h : n < 32) (ps : List Piece) :
    join? (.unit n :: ps) = (join? ps).map (Char.ofNat n :: ·) := by
  have hhigh : isHighHalf n = false := by simp [isHighHalf]; omega
  have hlow : isLowHalf n = false := by simp [isLowHalf]; omega
  cases ps with
  | nil => simp [join?, hhigh, hlow]
  | cons p ps => cases p <;> simp [join?, hhigh, hlow]

theorem join?_pieces (cs : List Char) : join? (cs.map pieceOf) = some cs := by
  induction cs with
  | nil => rfl
  | cons c cs ih =>
    rw [List.map_cons, pieceOf]
    split
    · rename_i h
      rw [join?_unit h.1, ih, Option.map_some, Char.ofNat_toNat]
    · rw [join?, ih]
      rfl

theorem read?_quote (s : String) (rest : List Char) :
    read? (quote s ++ rest) = some (.text (some s), rest) := by
  have hq : quote s ++ rest = '"' :: (s.toList.flatMap escape ++ '"' :: rest) := by
    simp [quote]
  rw [hq, read?, pieces?_quoted]
  simp [join?_pieces]

/-- A number ends where these characters begin. -/
def Ends (cs : List Char) : Prop :=
  ∀ c ∈ cs.head?, Decimal.isDigit c = false ∧ c ≠ '.' ∧ c ≠ 'e' ∧ c ≠ 'E'

theorem Ends.cons {c : Char} (h : c ∈ [',', ']', '}', ' ', '\n', '\t', '\r']) (cs : List Char) :
    Ends (c :: cs) := by
  have hall : ∀ c ∈ [',', ']', '}', ' ', '\n', '\t', '\r'],
      Decimal.isDigit c = false ∧ c ≠ '.' ∧ c ≠ 'e' ∧ c ≠ 'E' := by
    simp [Decimal.isDigit]
  intro d hd
  obtain rfl : c = d := by simpa using hd
  exact hall c h

theorem wholePart?_toDigits (n : Nat) {rest : List Char} (hr : Ends rest) :
    wholePart? (Nat.toDigits 10 n ++ rest) = some (Nat.toDigits 10 n, rest) := by
  have hrest : ∀ c ∈ rest.head?, Decimal.isDigit c = false := fun c hc => (hr c hc).1
  have hd := Decimal.all_isDigit_toDigits n
  rcases Nat.eq_zero_or_pos n with rfl | hn
  · cases rest with
    | nil => rfl
    | cons c rest => simp [wholePart?, (hr c rfl).1]
  · have hzero := Decimal.head_toDigits_ne_zero (Nat.ne_of_gt hn)
    have ht := Decimal.takeWhile_isDigit hd hrest
    have hw := Decimal.dropWhile_isDigit hd hrest
    unfold wholePart?
    split
    · rename_i cs hcs
      cases hds : Nat.toDigits 10 n with
      | nil => exact absurd hds Nat.toDigits_ne_nil
      | cons d ds => simp_all
    · simp only [ht, hw, Nat.toDigits_ne_nil, if_false]

theorem fraction?_of_ends {rest : List Char} (hr : Ends rest) :
    fraction? rest = some ([], rest) := by
  unfold fraction?
  split
  · exact absurd rfl (hr '.' rfl).2.1
  · rfl

theorem exponent?_of_ends {rest : List Char} (hr : Ends rest) :
    exponent? rest = some ([], rest) := by
  cases rest with
  | nil => rfl
  | cons c rest =>
    obtain ⟨-, -, he, hE⟩ := hr c rfl
    simp [exponent?, he, hE]

theorem number?_toDigits {n : Nat} (hn : n < 2 ^ 64) {rest : List Char} (hr : Ends rest) :
    number? (Nat.toDigits 10 n ++ rest) = some (.natural n, rest) := by
  have hd := Decimal.all_isDigit_toDigits n
  have hv : Decimal.ofDigits (Nat.toDigits 10 n) = n := Nat.ofDigitChars_ten_toDigits
  obtain ⟨m, k, hc, hread⟩ := Binary64.exists_ofChars?_toDigits hn
  have hliteral : ofLiteral (Nat.toDigits 10 n) = .natural n := by
    simp only [ofLiteral, hread, hd, if_true, hv]
  unfold number?
  split
  rename_i sign cs hsign
  split at hsign
  · rename_i r hr
    cases hds : Nat.toDigits 10 n with
    | nil => exact absurd hds Nat.toDigits_ne_nil
    | cons d ds =>
      rw [hds] at hr hd
      obtain ⟨rfl, -⟩ := List.cons.inj hr
      cases hd
  · obtain ⟨rfl, rfl⟩ := Prod.mk.inj hsign
    simp only [wholePart?_toDigits n hr, fraction?_of_ends hr, exponent?_of_ends hr,
      Option.bind_eq_bind, Option.bind_some, List.nil_append, List.append_nil, hliteral]
    rfl

theorem read?_toDigits {n : Nat} (hn : n < 2 ^ 64) {rest : List Char} (hr : Ends rest) :
    read? (Nat.toDigits 10 n ++ rest) = some (.atom (.natural n), rest) := by
  have hnum := number?_toDigits hn hr
  have hd := Decimal.all_isDigit_toDigits n
  cases hds : Nat.toDigits 10 n with
  | nil => exact absurd hds Nat.toDigits_ne_nil
  | cons d ds =>
    rw [hds] at hnum hd
    simp only [List.all_cons, Bool.and_eq_true] at hd
    rw [List.cons_append] at hnum ⊢
    unfold read?
    split <;> simp_all [Decimal.isDigit]

/-- However many characters a text may have, it has these lexemes. -/
def Scans (cs : List Char) (ls : List Lexeme) : Prop :=
  ∀ bound, cs.length ≤ bound → scanWithin? bound cs = some ls

namespace Scans

theorem nil : Scans [] [] := fun bound _ => by cases bound <;> rfl

theorem scan? {cs : List Char} {ls : List Lexeme} (h : Scans cs ls) : scan? cs = some ls :=
  h cs.length (Nat.le_refl _)

theorem blank {c : Char} {cs : List Char} {ls : List Lexeme} (hc : isBlank c) (h : Scans cs ls) :
    Scans (c :: cs) ls := by
  intro bound hb
  obtain ⟨bound, rfl⟩ := Nat.exists_eq_add_one.mpr (Nat.lt_of_lt_of_le (Nat.succ_pos _) hb)
  rw [scanWithin?, if_pos hc]
  exact h bound (Nat.le_of_succ_le_succ hb)

theorem blanks {bs cs : List Char} {ls : List Lexeme} (hb : bs.all isBlank) (h : Scans cs ls) :
    Scans (bs ++ cs) ls := by
  induction bs with
  | nil => exact h
  | cons b bs ih =>
    simp only [List.all_cons, Bool.and_eq_true] at hb
    exact blank hb.1 (ih hb.2)

/-- A lexeme and what the rest has. -/
theorem lexeme {c : Char} {cs rest : List Char} {l : Lexeme} {ls : List Lexeme}
    (hc : isBlank c = false) (hl : read? (c :: cs) = some (l, rest))
    (hlen : rest.length ≤ cs.length) (h : Scans rest ls) : Scans (c :: cs) (l :: ls) := by
  intro bound hb
  obtain ⟨bound, rfl⟩ := Nat.exists_eq_add_one.mpr (Nat.lt_of_lt_of_le (Nat.succ_pos _) hb)
  rw [scanWithin?, hc, if_neg Bool.false_ne_true, hl]
  have hrest := h bound (hlen.trans (Nat.le_of_succ_le_succ hb))
  simp [hrest]

theorem quote (s : String) {cs : List Char} {ls : List Lexeme} (h : Scans cs ls) :
    Scans (quote s ++ cs) (.text (some s) :: ls) := by
  have hl := read?_quote s cs
  rw [Json.quote, List.cons_append] at hl ⊢
  exact lexeme rfl hl (by simp; omega) h

theorem natural {n : Nat} (hn : n < 2 ^ 64) {cs : List Char} {ls : List Lexeme} (he : Ends cs)
    (h : Scans cs ls) : Scans (Nat.toDigits 10 n ++ cs) (.atom (.natural n) :: ls) := by
  have hl := read?_toDigits hn he
  have hd := Decimal.all_isDigit_toDigits n
  cases hds : Nat.toDigits 10 n with
  | nil => exact absurd hds Nat.toDigits_ne_nil
  | cons d ds =>
    rw [hds] at hl hd
    simp only [List.all_cons, Bool.and_eq_true] at hd
    have hblank : isBlank d = false := by
      by_contra hb
      simp only [isBlank, Bool.not_eq_false, Bool.or_eq_true, beq_iff_eq] at hb
      rcases hb with ((rfl | rfl) | rfl) | rfl <;> cases hd.1
    exact lexeme hblank hl (by simp) h

end Scans

end Lexeme

open Lexeme (Scans Ends isBlank)

/-- A layout puts nothing but blanks between lexemes. -/
structure Layout.Blank (l : Layout) : Prop where
  newline : ∀ depth, (l.newline depth).all isBlank
  colon : ∃ bs, l.colon = ':' :: bs ∧ bs.all isBlank

theorem blank_indented : indented.Blank where
  newline depth := by simp [indented, isBlank]
  colon := ⟨[' '], rfl, rfl⟩

namespace Layout.Blank

variable {l : Layout} {cs : List Char} {ls : List Lexeme}

theorem scans_newline (hl : l.Blank) (depth : Nat) (h : Scans cs ls) :
    Scans (l.newline depth ++ cs) ls :=
  h.blanks (hl.newline depth)

theorem scans_colon (hl : l.Blank) (h : Scans cs ls) : Scans (l.colon ++ cs) (.colon :: ls) := by
  obtain ⟨bs, hbs, hb⟩ := hl.colon
  rw [hbs, List.cons_append]
  exact .lexeme rfl rfl (Nat.le_refl _) (h.blanks hb)

/-- Blanks and what is behind them. -/
theorem ends_newline (hl : l.Blank) (depth : Nat) (h : Ends cs) : Ends (l.newline depth ++ cs) := by
  have hb := hl.newline depth
  cases hn : l.newline depth with
  | nil => exact h
  | cons b bs =>
    rw [hn, List.all_cons, Bool.and_eq_true] at hb
    have hblank := hb.1
    simp only [isBlank, Bool.or_eq_true, beq_iff_eq] at hblank
    rcases hblank with ((rfl | rfl) | rfl) | rfl <;> exact .cons (by simp) _

end Layout.Blank

section

variable {l : Layout}

theorem ends_writeItems (l : Layout) (depth : Nat) (js : List Json) {cs : List Char} (h : Ends cs) :
    Ends (writeItems l depth js cs) := by
  cases js with
  | nil => exact h
  | cons j js => exact .cons (by simp) _

theorem ends_writeFields (l : Layout) (depth : Nat) (fs : List (String × Json)) {cs : List Char}
    (h : Ends cs) : Ends (writeFields l depth fs cs) := by
  cases fs with
  | nil => exact h
  | cons f fs => exact .cons (by simp) _

mutual

theorem scans_write (hl : l.Blank) (depth : Nat) {j : Json} (hj : j.isPlain) {cs : List Char}
    {ls : List Lexeme} (he : Ends cs) (h : Scans cs ls) :
    Scans (write l depth j cs) (lexemes j ls) := by
  cases j with
  | null => exact .lexeme rfl rfl (by simp; omega) h
  | flag b => cases b <;> exact .lexeme rfl rfl (by simp; omega) h
  | natural n => exact h.natural (by simpa [isPlain] using hj) he
  | number literal => cases hj
  | text s => exact h.quote s
  | array items =>
    cases items with
    | nil => exact .lexeme rfl rfl (by simp) (.lexeme rfl rfl (Nat.le_refl _) h)
    | cons j js =>
      simp only [isPlain, arePlain, Bool.and_eq_true] at hj
      have hend : Scans (l.newline depth ++ ']' :: cs) (.rightBracket :: ls) :=
        hl.scans_newline depth (.lexeme rfl rfl (Nat.le_refl _) h)
      have hends : Ends (l.newline depth ++ ']' :: cs) := hl.ends_newline depth (.cons (by simp) _)
      have hjs := scans_writeItems hl (depth + 1) hj.2 hends hend
      exact .lexeme rfl rfl (Nat.le_refl _) (hl.scans_newline _
        (scans_write hl _ hj.1 (ends_writeItems l _ js hends) hjs))
  | object fields =>
    cases fields with
    | nil => exact .lexeme rfl rfl (by simp) (.lexeme rfl rfl (Nat.le_refl _) h)
    | cons f fs =>
      obtain ⟨k, j⟩ := f
      simp only [isPlain, havePlain, Bool.and_eq_true] at hj
      have hend : Scans (l.newline depth ++ '}' :: cs) (.rightBrace :: ls) :=
        hl.scans_newline depth (.lexeme rfl rfl (Nat.le_refl _) h)
      have hends : Ends (l.newline depth ++ '}' :: cs) := hl.ends_newline depth (.cons (by simp) _)
      have hfs := scans_writeFields hl (depth + 1) hj.2 hends hend
      exact .lexeme rfl rfl (Nat.le_refl _) (hl.scans_newline _ (.quote k (hl.scans_colon
        (scans_write hl _ hj.1 (ends_writeFields l _ fs hends) hfs))))
  | unreadable => cases hj

theorem scans_writeItems (hl : l.Blank) (depth : Nat) {js : List Json} (hj : arePlain js)
    {cs : List Char} {ls : List Lexeme} (he : Ends cs) (h : Scans cs ls) :
    Scans (writeItems l depth js cs) (itemLexemes js ls) := by
  cases js with
  | nil => exact h
  | cons j js =>
    simp only [arePlain, Bool.and_eq_true] at hj
    exact .lexeme rfl rfl (Nat.le_refl _) (hl.scans_newline _
      (scans_write hl _ hj.1 (ends_writeItems l _ js he) (scans_writeItems hl _ hj.2 he h)))

theorem scans_writeFields (hl : l.Blank) (depth : Nat) {fs : List (String × Json)}
    (hj : havePlain fs) {cs : List Char} {ls : List Lexeme} (he : Ends cs) (h : Scans cs ls) :
    Scans (writeFields l depth fs cs) (fieldLexemes fs ls) := by
  cases fs with
  | nil => exact h
  | cons f fs =>
    obtain ⟨k, j⟩ := f
    simp only [havePlain, Bool.and_eq_true] at hj
    exact .lexeme rfl rfl (Nat.le_refl _) (hl.scans_newline _ (.quote k (hl.scans_colon
      (scans_write hl _ hj.1 (ends_writeFields l _ fs he) (scans_writeFields hl _ hj.2 he h)))))

end

end

/-- A text that a value is written as has the lexemes of the value. -/
theorem scan?_write {l : Layout} (hl : l.Blank) {j : Json} (hj : j.isPlain) :
    Lexeme.scan? (write l 0 j []) = some (lexemes j []) :=
  (scans_write hl 0 hj (by simp [Ends]) .nil).scan?

end Json
end KnittingPattern
