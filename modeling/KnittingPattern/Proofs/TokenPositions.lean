import KnittingPattern.Proofs.TextPositions
import KnittingPattern.Proofs.TextSegmentation

/-! # Positions of tokens

No token ends between a carriage return and its line feed, so the position that runs along the
tokens of a text is the one behind the text before each of them.  Main theorem:
`Token.tokenize_positions`. -/

namespace KnittingPattern

open Token (Kind)

namespace Lexeme

/-- Only line breaks have characters that break lines. -/
theorem not_break_of_isPiece {after cs : List Char} {k : Kind} (h : IsPiece after k cs)
    (hk : k ≠ .newline) {c : Char} (hmem : c ∈ cs) : ¬(c = '\r' ∨ c = '\n') := by
  intro hbreak
  cases k with
  | whitespace =>
    have hc := h.2.all c hmem
    rcases hbreak with rfl | rfl <;> exact absurd hc (by decide)
  | newline => exact hk rfl
  | comment =>
    obtain ⟨ds, rfl, hrun⟩ := h
    have hc := hrun.all c
    rcases hbreak with rfl | rfl <;> simp_all
  | identifier =>
    obtain ⟨d, ds, rfl, hd, hrun⟩ := h
    rcases List.mem_cons.mp hmem with rfl | hds
    · rcases hbreak with rfl | rfl <;> cases hd
    · have hc := hrun.all c hds
      rcases hbreak with rfl | rfl <;> exact absurd hc (by decide)
  | number =>
    have hc := h.2.all c hmem
    rcases hbreak with rfl | rfl <;> exact absurd hc (by decide)
  | becomes =>
    obtain rfl : cs = _ := h
    rcases hbreak with rfl | rfl <;> simp at hmem
  | illegal =>
    obtain ⟨d, rfl, hstray⟩ := h
    obtain rfl := List.mem_singleton.mp hmem
    exact hbreak.elim hstray.newline.1 hstray.newline.2
  | endOfInput => exact h.elim
  | endOfSource => exact h.elim
  | _ =>
    obtain ⟨d, rfl, hs⟩ := h
    obtain rfl := List.mem_singleton.mp hmem
    rcases hbreak with rfl | rfl <;> simp [signs] at hs

/-- A line break is not taken apart between a piece and what is behind it. -/
theorem not_apart_of_isPiece {after cs : List Char} {k : Kind} (h : IsPiece after k cs) :
    ¬(cs.getLast? = some '\r' ∧ after.head? = some '\n') := by
  rintro ⟨hlast, hhead⟩
  by_cases hk : k = .newline
  · subst hk
    rcases h with rfl | rfl | ⟨-, hn⟩
    · cases hlast
    · cases hlast
    · exact hn hhead
  · exact not_break_of_isPiece h hk (List.mem_of_getLast? hlast) (.inl rfl)

variable {l : Lexeme} {ls : List Lexeme}

theorem Cut.ne_nil {rest : List Char} (h : l.Cut rest) : l.text.toList ≠ [] := by
  obtain ⟨c, cs, hl, -⟩ := h
  rw [hl]
  exact List.cons_ne_nil c cs

/-- The position behind a lexeme and more is reached by way of the lexeme. -/
theorem Cut.advanceOver {rest cs : List Char} (h : l.Cut rest) (hcs : cs <+: rest) (p : Position) :
    p.advanceOver (l.text.toList ++ cs) = (p.advanceOver l.text.toList).advanceOver cs := by
  refine p.advanceOver_append fun ⟨hlast, hhead⟩ => ?_
  obtain ⟨more, rfl⟩ := hcs
  exact not_apart_of_isPiece ((cut_iff_isPiece l _).mp h)
    ⟨hlast, by rw [List.head?_append, hhead]; rfl⟩

theorem endPosition_eq (h : Cuts ls) (p : Position) :
    endPosition p ls = p.advanceOver (chars ls) := by
  induction ls generalizing p with
  | nil => rfl
  | cons l ls ih =>
    rw [chars_cons, h.1.advanceOver (List.prefix_refl _), ← ih h.2]
    rfl

end Lexeme

namespace Token

open Lexeme (chars Cuts)

def literals (ts : List Token) : List Char := ts.flatMap fun t => t.literal.toList

theorem literals_eq_chars (ts : List Token) : literals ts = chars (ts.map lexeme) := by
  rw [literals, chars, List.flatMap_map]
  rfl

theorem literals_tokenize (source : Nat) (text : String) :
    literals (tokenize source text) = text.toList := by
  rw [literals_eq_chars, map_lexeme_tokenize, Lexeme.chars_scan]

/-- Each token is where the text before it leads. -/
theorem position_of_place {source : Nat} {p : Position} {ls : List Lexeme} (h : Cuts ls)
    {pre post : List Token} {t : Token} (ht : place source p ls = pre ++ t :: post) :
    t.position = (p.advanceOver (literals pre)).following := by
  induction ls generalizing p pre with
  | nil => simp [place] at ht
  | cons l ls ih =>
    rw [place] at ht
    cases pre with
    | nil =>
      obtain ⟨rfl, -⟩ := List.cons.inj ht
      rfl
    | cons u pre =>
      obtain ⟨rfl, -⟩ := List.cons.inj ht
      have hpre : place source (p.advanceOver l.text.toList) ls = pre ++ t :: post :=
        (List.cons.inj ht).2
      have hprefix : literals pre <+: chars ls := by
        rw [← map_lexeme_place source (p.advanceOver l.text.toList) ls, hpre, ← literals_eq_chars,
          literals, literals, List.flatMap_append]
        exact List.prefix_append _ _
      rw [ih h.2 hpre, ← h.1.advanceOver hprefix]
      rfl

theorem before_of_mem_place {source : Nat} {p q : Position} {ls : List Lexeme} (h : Cuts ls)
    (hq : q.Before p.following) {t : Token} (ht : t ∈ place source p ls) :
    q.Before t.position := by
  induction ls generalizing p with
  | nil => cases ht
  | cons l ls ih =>
    rcases List.mem_cons.mp ht with rfl | ht
    · exact hq
    · exact ih h.2 (hq.trans (p.before_advanceOver h.1.ne_nil).following) ht

theorem pairwise_place {source : Nat} {p : Position} {ls : List Lexeme} (h : Cuts ls) :
    (place source p ls).Pairwise fun s t => s.position.Before t.position := by
  induction ls generalizing p with
  | nil => exact .nil
  | cons l ls ih =>
    refine .cons ?_ (ih h.2)
    intro t ht
    exact before_of_mem_place h.2 (p.before_advanceOver h.1.ne_nil).following ht

theorem endOf_eq (text : String) : endOf text = .behind text.toList := by
  rw [endOf, Lexeme.endPosition_eq (Lexeme.cuts_scan _), Lexeme.chars_scan,
    Position.advanceOver_start]

/-- The literals of the tokens of a text are the text, none is empty, each token stands behind the
line breaks and the characters before it, and the end of the text behind all of them. -/
theorem tokenize_positions (source : Nat) (text : String) :
    (∀ t ∈ tokenize source text, t.literal ≠ "") ∧
    String.join ((tokenize source text).map Token.literal) = text ∧
    (∀ pre t post, tokenize source text = pre ++ t :: post →
      t.position = ⟨1 + lineBreaks (literals pre), 1 + (lastLine (literals pre)).length⟩) ∧
    (tokenize source text).Pairwise (fun s t => s.position.Before t.position) ∧
    endOf text = ⟨1 + lineBreaks text.toList, (lastLine text.toList).length⟩ := by
  have hcuts := Lexeme.cuts_scan text.toList
  refine ⟨?_, ?_, ?_, pairwise_place hcuts, endOf_eq text⟩
  · intro t ht hempty
    obtain ⟨pre, post, hls⟩ := List.append_of_mem (mem_place ht)
    have hl := (Lexeme.cuts_iff _).mp hcuts pre _ post hls
    exact hl.ne_nil (by rw [hempty]; rfl)
  · rw [← String.toList_inj, String.toList_join, List.flatMap_map]
    exact literals_tokenize source text
  · intro pre t post ht
    rw [position_of_place hcuts ht, Position.advanceOver_start, Nat.add_comm 1 (List.length _)]
    rfl

/-- A comment, a line break of two characters, and one of each of them. -/
def threeBreaks : List Token :=
  [⟨.comment, ";", ⟨1, 1⟩, 0⟩, ⟨.newline, "\r\n", ⟨1, 2⟩, 0⟩, ⟨.newline, "\n", ⟨2, 1⟩, 0⟩,
    ⟨.newline, "\r", ⟨3, 1⟩, 0⟩]

theorem tokenize_positions_threeBreaks :
    tokenize 0 ";\r\n\n\rp" = threeBreaks ++ [⟨.identifier, "p", ⟨4, 1⟩, 0⟩] ∧
    1 + lineBreaks (literals threeBreaks) = 4 ∧ 1 + (lastLine (literals threeBreaks)).length = 1 ∧
    endOf ";\r\n\n\rp" = ⟨4, 1⟩ := by
  have hread : tokenize 0 ";\r\n\n\rp" = threeBreaks ++ [⟨.identifier, "p", ⟨4, 1⟩, 0⟩] := by
    decide +kernel
  obtain ⟨-, -, hposition, -, hend⟩ := tokenize_positions 0 ";\r\n\n\rp"
  obtain ⟨hline, hcolumn⟩ := Position.mk.inj (hposition threeBreaks _ [] hread)
  exact ⟨hread, hline.symm, hcolumn.symm, hend⟩

end Token

end KnittingPattern
