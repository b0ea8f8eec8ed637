import KnittingPattern.Proofs.LexemeCuts
import Mathlib.Tactic.FinCases

/-! # The segmentation of a text

What a piece of each class looks like is said by its characters and by the character behind it:
names, numbers, blanks and comments go on as long as they can, a carriage return takes the line feed
behind it, and a character that nothing can begin with is illegal by itself.  A text has one
segmentation into such pieces, and its tokens are it.  Main theorem:
`Token.tokenize_segmentation`. -/

namespace KnittingPattern

open Token (Kind)

namespace Lexeme

def Blank (c : Char) : Prop := c ∈ [' ', '\t', '\x0c']

def Figure (c : Char) : Prop := c.isDigit ∨ c = '.'

instance (c : Char) : Decidable (Blank c) := inferInstanceAs (Decidable (c ∈ _))

instance (c : Char) : Decidable (Figure c) := inferInstanceAs (Decidable (_ ∨ _))

/-- Characters of one sort, and behind them none of this sort. -/
structure Run (sort : Char → Prop) (cs after : List Char) : Prop where
  all : ∀ c ∈ cs, sort c
  ends : ∀ c ∈ after.head?, ¬sort c

/-- The classes whose lexemes are always one and the same character. -/
def signs : List (Kind × Char) :=
  [(.minus, '-'), (.asterisk, '*'), (.feet, '\''), (.inches, '"'), (.comma, ','),
    (.leftParen, '('), (.rightParen, ')'), (.leftBrace, '{'), (.rightBrace, '}'), (.equals, '=')]

/-- No piece begins with `c` in front of `after`. -/
structure Stray (c : Char) (after : List Char) : Prop where
  blank : ¬Blank c
  newline : c ≠ '\r' ∧ c ≠ '\n'
  comment : c ≠ ';'
  name : ¬c.isAlpha
  number : ¬Figure c
  becomes : c = ':' → after.head? ≠ some '='
  sign : ∀ k, (k, c) ∉ signs

/-- The characters of a piece of each class in front of `after`. -/
def IsPiece (after : List Char) : Kind → List Char → Prop
  | .whitespace, cs => cs ≠ [] ∧ Run Blank cs after
  | .newline, cs => cs = ['\r', '\n'] ∨ cs = ['\n'] ∨ cs = ['\r'] ∧ after.head? ≠ some '\n'
  | .comment, cs => ∃ ds, cs = ';' :: ds ∧ Run (fun d => d ≠ '\r' ∧ d ≠ '\n') ds after
  | .identifier, cs =>
    ∃ c ds, cs = c :: ds ∧ c.isAlpha ∧ Run (fun d => d.isAlpha ∨ d = '-') ds after
  | .number, cs => cs ≠ [] ∧ Run Figure cs after
  | .becomes, cs => cs = [':', '=']
  | .illegal, cs => ∃ c, cs = [c] ∧ Stray c after
  | .endOfInput, _ => False
  | .endOfSource, _ => False
  | k, cs => ∃ c, cs = [c] ∧ (k, c) ∈ signs

/-- A text in pieces, each of its class in front of the pieces behind it. -/
structure Segmentation (cs : List Char) (ls : List Lexeme) : Prop where
  chars_eq : chars ls = cs
  isPiece : ∀ pre l post, ls = pre ++ l :: post → IsPiece (chars post) l.kind l.text.toList

theorem isBlank_iff (c : Char) : isBlank c ↔ Blank c := by
  simp [isBlank, Blank, or_assoc]

theorem isLetter_eq_isAlpha (c : Char) : isLetter c = c.isAlpha := by
  have hupper : c.isUpper = decide ('A' ≤ c ∧ c ≤ 'Z') := rfl
  have hlower : c.isLower = (decide ('a' ≤ c) && decide (c ≤ 'z')) := rfl
  have halpha : c.isAlpha = (c.isUpper || c.isLower) := rfl
  rw [isLetter, halpha, hupper, hlower, Bool.decide_and, Bool.or_comm]

theorem isNamePart_iff (c : Char) : isNamePart c ↔ c.isAlpha ∨ c = '-' := by
  simp [isNamePart, isLetter_eq_isAlpha]

theorem isNumberPart_iff (c : Char) : isNumberPart c ↔ Figure c := by
  simp [isNumberPart, Figure, Char.isDigit, Char.le_def]

theorem not_isLineBreak_iff (c : Char) : !isLineBreak c ↔ c ≠ '\r' ∧ c ≠ '\n' := by
  simp [isLineBreak, and_comm]

theorem single_cases (c : Char) :
    (single c, c) ∈ signs ∨ single c = .illegal ∧ ∀ k, (k, c) ∉ signs := by
  unfold single
  split
  case h_11 => simp_all [signs]
  all_goals exact .inl (by decide)

theorem length_takeWhile_eq_iff {p : Char → Bool} {sort : Char → Prop} (h : ∀ c, p c ↔ sort c)
    (cs after : List Char) :
    ((cs ++ after).takeWhile p).length = cs.length ↔ Run sort cs after := by
  rw [length_takeWhile_append_iff]
  simp only [List.all_eq_true, h]
  exact ⟨fun ⟨ha, he⟩ => ⟨ha, he⟩, fun hr => ⟨hr.all, hr.ends⟩⟩

theorem run_cons_iff {sort : Char → Prop} {c : Char} (hc : sort c) (cs after : List Char) :
    Run sort (c :: cs) after ↔ Run sort cs after :=
  ⟨fun h => ⟨fun d hd => h.all d (List.mem_cons_of_mem c hd), h.ends⟩,
    fun h => ⟨List.forall_mem_cons.mpr ⟨hc, h.all⟩, h.ends⟩⟩

theorem extent_sign {k : Kind} {c : Char} (h : (k, c) ∈ signs) (rest : List Char) :
    extent c rest = (k, 0) := by
  simp only [signs] at h
  fin_cases h <;> rfl

theorem isPiece_sign {k : Kind} {c : Char} (h : (k, c) ∈ signs) (after : List Char) :
    IsPiece after k [c] := by
  have h' := h
  simp only [signs] at h
  fin_cases h <;> exact ⟨_, rfl, h'⟩

/-- What a character takes is a piece of its class. -/
theorem isPiece_of_extent {c : Char} {cs after : List Char} {k : Kind}
    (h : extent c (cs ++ after) = (k, cs.length)) : IsPiece after k (c :: cs) := by
  unfold extent at h
  split_ifs at h with hblank hn hr hhead hcomment hletter hnumber hcolon hhead
  all_goals obtain ⟨rfl, hlen⟩ := Prod.mk.inj h
  · have hb := (isBlank_iff c).mp hblank
    exact ⟨by simp, (run_cons_iff hb cs after).mpr
      ((length_takeWhile_eq_iff isBlank_iff _ _).mp hlen)⟩
  · obtain rfl := List.length_eq_zero_iff.mp hlen.symm
    exact .inr (.inl (by rw [hn]))
  · obtain ⟨d, rfl⟩ := List.length_eq_one_iff.mp hlen.symm
    obtain rfl : d = '\n' := by simpa using hhead
    exact .inl (by rw [hr])
  · obtain rfl := List.length_eq_zero_iff.mp hlen.symm
    exact .inr (.inr ⟨by rw [hr], hhead⟩)
  · exact ⟨cs, by rw [hcomment], (length_takeWhile_eq_iff not_isLineBreak_iff _ _).mp hlen⟩
  · exact ⟨c, cs, rfl, isLetter_eq_isAlpha c ▸ hletter,
      (length_takeWhile_eq_iff isNamePart_iff _ _).mp hlen⟩
  · have hf := (isNumberPart_iff c).mp hnumber
    exact ⟨by simp, (run_cons_iff hf cs after).mpr
      ((length_takeWhile_eq_iff isNumberPart_iff _ _).mp hlen)⟩
  · obtain ⟨d, rfl⟩ := List.length_eq_one_iff.mp hlen.symm
    obtain rfl : d = '=' := by simpa using hhead
    rw [hcolon]
    rfl
  all_goals obtain rfl := List.length_eq_zero_iff.mp hlen.symm
  all_goals rw [isBlank_iff] at hblank
  all_goals rw [isLetter_eq_isAlpha] at hletter
  all_goals rw [isNumberPart_iff] at hnumber
  · exact ⟨c, rfl, hblank, ⟨hr, hn⟩, hcomment, hletter, hnumber, fun _ => hhead,
      hcolon ▸ by simp [signs]⟩
  · rcases single_cases c with hs | ⟨hs, hnone⟩
    · exact isPiece_sign hs after
    · rw [hs]
      exact ⟨c, rfl, hblank, ⟨hr, hn⟩, hcomment, hletter, hnumber, fun hc => absurd hc hcolon,
        hnone⟩

/-- A piece is what its first character takes. -/
theorem extent_of_isPiece {c : Char} {cs after : List Char} {k : Kind}
    (h : IsPiece after k (c :: cs)) : extent c (cs ++ after) = (k, cs.length) := by
  cases k with
  | whitespace =>
    have hc := h.2.all c List.mem_cons_self
    rw [extent_blank ((isBlank_iff c).mpr hc),
      (length_takeWhile_eq_iff isBlank_iff _ _).mpr ((run_cons_iff hc cs after).mp h.2)]
  | newline =>
    rcases h with h | h | ⟨h, hn⟩
    · obtain ⟨rfl, rfl⟩ := List.cons.inj h
      rfl
    · obtain ⟨rfl, rfl⟩ := List.cons.inj h
      rfl
    · obtain ⟨rfl, rfl⟩ := List.cons.inj h
      simp [extent, isBlank, hn]
  | comment =>
    obtain ⟨ds, hds, hrun⟩ := h
    obtain ⟨rfl, rfl⟩ := List.cons.inj hds
    have hlen := (length_takeWhile_eq_iff not_isLineBreak_iff cs after).mpr hrun
    simp [extent, isBlank, hlen]
  | identifier =>
    obtain ⟨d, ds, hds, hd, hrun⟩ := h
    obtain ⟨rfl, rfl⟩ := List.cons.inj hds
    rw [← isLetter_eq_isAlpha] at hd
    rw [extent_letter hd, (length_takeWhile_eq_iff isNamePart_iff _ _).mpr hrun]
  | number =>
    have hc := h.2.all c List.mem_cons_self
    rw [extent_numberPart ((isNumberPart_iff c).mpr hc),
      (length_takeWhile_eq_iff isNumberPart_iff _ _).mpr ((run_cons_iff hc cs after).mp h.2)]
  | becomes =>
    obtain ⟨rfl, rfl⟩ := List.cons.inj h
    rfl
  | illegal =>
    obtain ⟨d, hd, hstray⟩ := h
    obtain ⟨rfl, rfl⟩ := List.cons.inj hd
    have hblank := (isBlank_iff c).not.mpr hstray.blank
    have hletter := isLetter_eq_isAlpha c ▸ hstray.name
    have hnumber := (isNumberPart_iff c).not.mpr hstray.number
    obtain ⟨hr, hn⟩ := hstray.newline
    have hsingle : single c = .illegal := by
      rcases single_cases c with hs | ⟨hs, -⟩
      · exact absurd hs (hstray.sign _)
      · exact hs
    by_cases hcolon : c = ':'
    · have hhead := hstray.becomes hcolon
      subst hcolon
      exact if_neg hhead
    · simp [extent, hblank, hn, hr, hstray.comment, hletter, hnumber, hcolon, hsingle]
  | endOfInput => exact h.elim
  | endOfSource => exact h.elim
  | _ =>
    obtain ⟨d, hd, hs⟩ := h
    obtain ⟨rfl, rfl⟩ := List.cons.inj hd
    exact extent_sign hs _

/-- A piece of the class with the characters `cs` goes on with `c`. -/
def GoesOn : Kind → List Char → Char → Prop
  | .whitespace, _, c => Blank c
  | .newline, cs, c => cs = ['\r'] ∧ c = '\n'
  | .comment, _, c => c ≠ '\r' ∧ c ≠ '\n'
  | .identifier, _, c => c.isAlpha ∨ c = '-'
  | .number, _, c => Figure c
  | .illegal, cs, c => cs = [':'] ∧ c = '='
  | _, _, _ => False

theorem IsPiece.ends {after cs : List Char} {k : Kind} (h : IsPiece after k cs) :
    ∀ c ∈ after.head?, ¬GoesOn k cs c := by
  intro c hc hgoes
  cases k with
  | whitespace | number => exact h.2.ends c hc hgoes
  | newline =>
    obtain ⟨rfl, rfl⟩ := hgoes
    rcases h with h | h | ⟨-, hfeed⟩
    · cases h
    · cases h
    · exact hfeed hc
  | comment =>
    obtain ⟨ds, -, hrun⟩ := h
    exact hrun.ends c hc hgoes
  | identifier =>
    obtain ⟨d, ds, -, -, hrun⟩ := h
    exact hrun.ends c hc hgoes
  | illegal =>
    obtain ⟨rfl, rfl⟩ := hgoes
    obtain ⟨d, hd, hstray⟩ := h
    exact hstray.becomes (List.singleton_inj.mp hd).symm hc
  | _ => exact hgoes

/-- In front of other characters a piece is a piece, if it does not go on with them. -/
theorem IsPiece.before {after after' cs : List Char} {k : Kind} (h : IsPiece after k cs)
    (hends : ∀ c ∈ after'.head?, ¬GoesOn k cs c) : IsPiece after' k cs := by
  cases k with
  | whitespace | number => exact ⟨h.1, h.2.all, hends⟩
  | newline =>
    exact h.imp_right (Or.imp_right fun ⟨hcs, _⟩ => ⟨hcs, fun hc => hends _ hc ⟨hcs, rfl⟩⟩)
  | comment =>
    obtain ⟨ds, hds, hrun⟩ := h
    exact ⟨ds, hds, hrun.all, hends⟩
  | identifier =>
    obtain ⟨c, ds, hds, hc, hrun⟩ := h
    exact ⟨c, ds, hds, hc, hrun.all, hends⟩
  | illegal =>
    obtain ⟨c, rfl, hstray⟩ := h
    exact ⟨c, rfl, { hstray with becomes := fun hcolon hc => hends _ hc ⟨by rw [hcolon], rfl⟩ }⟩
  | endOfInput | endOfSource => exact h.elim
  | _ => exact h

theorem isPiece_ne_nil {after cs : List Char} {k : Kind} (h : IsPiece after k cs) : cs ≠ [] := by
  rintro rfl
  cases k <;> simp [IsPiece] at h

theorem cut_iff_isPiece (l : Lexeme) (after : List Char) :
    l.Cut after ↔ IsPiece after l.kind l.text.toList := by
  constructor
  · rintro ⟨c, cs, hl, hc⟩
    rw [hl]
    exact isPiece_of_extent hc
  · intro h
    obtain ⟨c, cs, hl⟩ := List.exists_cons_of_ne_nil (isPiece_ne_nil h)
    rw [hl] at h
    exact ⟨c, cs, hl, extent_of_isPiece h⟩

theorem cuts_iff (ls : List Lexeme) :
    Cuts ls ↔ ∀ pre l post, ls = pre ++ l :: post → l.Cut (chars post) := by
  induction ls with
  | nil => simp [Cuts]
  | cons l ls ih =>
    rw [Cuts, ih]
    constructor
    · rintro ⟨hl, hls⟩ pre l' post hpre
      cases pre with
      | nil =>
        obtain ⟨rfl, rfl⟩ := List.cons.inj hpre
        exact hl
      | cons x pre => exact hls pre l' post (List.cons.inj hpre).2
    · intro h
      exact ⟨h [] l ls rfl, fun pre l' post hpre => h (l :: pre) l' post (by rw [hpre]; rfl)⟩

/-- The lexemes of a text are its only segmentation. -/
theorem segmentation_iff (cs : List Char) (ls : List Lexeme) :
    Segmentation cs ls ↔ ls = scan cs := by
  have hcuts : Cuts ls ↔ ∀ pre l post, ls = pre ++ l :: post →
      IsPiece (chars post) l.kind l.text.toList := by
    simp only [cuts_iff, cut_iff_isPiece]
  constructor
  · rintro ⟨rfl, h⟩
    exact (scan_chars (hcuts.mpr h)).symm
  · rintro rfl
    exact ⟨chars_scan cs, hcuts.mp (cuts_scan cs)⟩

theorem not_figure_of_blank {c : Char} (h : Blank c) : ¬Figure c := by
  simp only [Blank, List.mem_cons, List.not_mem_nil, or_false] at h
  rcases h with rfl | rfl | rfl <;> decide

theorem not_blank_figure_of_name {c : Char} (h : c.isAlpha ∨ c = '-') :
    ¬Blank c ∧ ¬Figure c := by
  rcases h with h | rfl
  · rw [← isLetter_eq_isAlpha] at h
    constructor
    · rw [← isBlank_iff]
      exact Bool.eq_false_iff.mp (not_blank_of_letter_or_digit (.inl h)).1
    · rw [← isNumberPart_iff]
      intro hn
      exact Bool.eq_false_iff.mp (isLetter_eq_false_of_numberPart hn) h
  · decide

theorem not_blank_figure_of_sign {k : Kind} {c : Char} (h : (k, c) ∈ signs) :
    ¬Blank c ∧ ¬Figure c := by
  simp only [signs] at h
  fin_cases h <;> decide

/-- No blank is behind a blank at the end of a piece, and nothing of a number behind a number. -/
theorem ends_of_isPiece {after cs : List Char} {k : Kind} (h : IsPiece after k cs) {c d : Char}
    (hc : c ∈ cs.getLast?) (hd : d ∈ after.head?) :
    (Blank d → ¬Blank c) ∧ (Figure d → ¬Figure c) := by
  have hmem : c ∈ cs := List.mem_of_getLast? hc
  have neither (hn : ¬Blank c ∧ ¬Figure c) : (Blank d → ¬Blank c) ∧ (Figure d → ¬Figure c) :=
    ⟨fun _ => hn.1, fun _ => hn.2⟩
  cases k with
  | whitespace =>
    exact ⟨fun hb => absurd hb (h.2.ends d hd), fun _ => not_figure_of_blank (h.2.all c hmem)⟩
  | number =>
    exact ⟨fun _ hb => not_figure_of_blank hb (h.2.all c hmem),
      fun hf => absurd hf (h.2.ends d hd)⟩
  | comment =>
    obtain ⟨ds, -, hrun⟩ := h
    have hbreak : d = '\r' ∨ d = '\n' := by
      by_contra hno
      exact hrun.ends d hd (not_or.mp hno)
    rcases hbreak with rfl | rfl
    · exact ⟨fun hb => absurd hb (by decide), fun hf => absurd hf (by decide)⟩
    · exact ⟨fun hb => absurd hb (by decide), fun hf => absurd hf (by decide)⟩
  | newline =>
    have hbreak : c = '\r' ∨ c = '\n' := by
      rcases h with rfl | rfl | ⟨rfl, -⟩ <;> simp_all
    rcases hbreak with rfl | rfl
    · exact neither (by decide)
    · exact neither (by decide)
  | identifier =>
    obtain ⟨e, ds, rfl, he, hrun⟩ := h
    rcases List.mem_cons.mp hmem with rfl | hmem
    · exact neither (not_blank_figure_of_name (.inl he))
    · exact neither (not_blank_figure_of_name (hrun.all c hmem))
  | becomes =>
    obtain rfl : cs = _ := h
    obtain rfl : '=' = c := by simpa using hc
    exact neither (by decide)
  | illegal =>
    obtain ⟨e, rfl, hstray⟩ := h
    obtain rfl : c = e := by simpa using hmem
    exact neither ⟨hstray.blank, hstray.number⟩
  | endOfInput => exact h.elim
  | endOfSource => exact h.elim
  | _ =>
    obtain ⟨e, rfl, hs⟩ := h
    obtain rfl : c = e := by simpa using hmem
    exact neither (not_blank_figure_of_sign hs)

/-- Nothing that a run of blanks or a number could begin with is before it. -/
theorem Segmentation.ends_before {cs : List Char} {ls pre post : List Lexeme} {l : Lexeme}
    (h : Segmentation cs ls) (hls : ls = pre ++ l :: post) {c : Char}
    (hc : c ∈ (chars pre).getLast?) :
    (l.kind = .whitespace → ¬Blank c) ∧ (l.kind = .number → ¬Figure c) := by
  have hl := h.isPiece pre l post hls
  obtain ⟨d, ds, hd⟩ := List.exists_cons_of_ne_nil (isPiece_ne_nil hl)
  rcases List.eq_nil_or_concat pre with rfl | ⟨pre, p, rfl⟩
  · cases hc
  · have hp := h.isPiece pre p (l :: post) (by simp [hls])
    have hlast : c ∈ p.text.toList.getLast? := by
      rw [chars, List.concat_eq_append, List.flatMap_append, List.flatMap_singleton,
        List.getLast?_append_of_ne_nil _ (isPiece_ne_nil hp)] at hc
      exact hc
    have hhead : d ∈ (chars (l :: post)).head? := by simp [hd]
    have hends := ends_of_isPiece hp hlast hhead
    rw [hd] at hl
    constructor
    · intro hk
      rw [hk] at hl
      exact hends.1 (hl.2.all d List.mem_cons_self)
    · intro hk
      rw [hk] at hl
      exact hends.2 (hl.2.all d List.mem_cons_self)

end Lexeme

namespace Token

/-- The tokens of a text are its one and only segmentation, and what is before a run of blanks or a
number does not belong to it. -/
theorem tokenize_segmentation (source : Nat) (text : String) :
    (∀ ls, Lexeme.Segmentation text.toList ls ↔ ls = (tokenize source text).map lexeme) ∧
    ∀ pre l post, (tokenize source text).map lexeme = pre ++ l :: post →
      ∀ c ∈ (Lexeme.chars pre).getLast?,
        (l.kind = .whitespace → ¬Lexeme.Blank c) ∧ (l.kind = .number → ¬Lexeme.Figure c) := by
  rw [map_lexeme_tokenize]
  have hsegments := Lexeme.segmentation_iff text.toList
  refine ⟨hsegments, ?_⟩
  intro pre l post hpre c hc
  exact ((hsegments _).mpr rfl).ends_before hpre hc

/-- A number that is written onto a name, a blank, and a colon that nothing becomes. -/
def strayColon : List Lexeme :=
  [⟨.identifier, "k"⟩, ⟨.number, "2"⟩, ⟨.whitespace, "\t"⟩, ⟨.illegal, ":"⟩]

theorem tokenize_segmentation_strayColon :
    (tokenize 0 "k2\t:").map lexeme = strayColon ∧
    Lexeme.Segmentation "k2\t:".toList strayColon ∧ ¬Lexeme.Figure 'k' ∧ ¬Lexeme.Blank '2' := by
  have hread : (tokenize 0 "k2\t:").map lexeme = strayColon := by decide +kernel
  obtain ⟨hsegments, hbefore⟩ := tokenize_segmentation 0 "k2\t:"
  have hnumber := hbefore [⟨.identifier, "k"⟩] ⟨.number, "2"⟩ _ hread 'k' (by decide)
  have hblank := hbefore [⟨.identifier, "k"⟩, ⟨.number, "2"⟩] ⟨.whitespace, "\t"⟩ _ hread '2'
    (by decide)
  exact ⟨hread, (hsegments strayColon).mpr hread.symm, hnumber.2 rfl, hblank.1 rfl⟩

end Token

end KnittingPattern
