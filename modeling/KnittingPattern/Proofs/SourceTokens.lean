import KnittingPattern.Proofs.BracketReading
import KnittingPattern.Proofs.FirstOffence
import KnittingPattern.Proofs.TextSegmentation
import Mathlib.Data.List.Chain

/-! # The tokens of texts

What a reader meets of several texts: no blanks, the end of input behind everything else, and behind
each comment the end of its line.  Main theorems: `TokenStream.ended_ofSources`,
`TokenStream.isChain_ofSources`. -/

namespace KnittingPattern

open Token (Kind)

namespace Lexeme

/-- Where its first character tells what a piece is, it is that. -/
theorem kind_of_isPiece {after cs : List Char} {c : Char} {k k' : Kind}
    (h : IsPiece after k (c :: cs)) (hc : ∀ rest, (extent c rest).1 = k') : k = k' := by
  rw [← hc (cs ++ after), extent_of_isPiece h]

/-- A line break begins no piece but a line break. -/
theorem newline_of_isPiece {after cs : List Char} {k : Kind} (h : IsPiece after k cs) {c : Char}
    (hc : c ∈ cs.head?) (hbreak : isLineBreak c) : k = .newline := by
  obtain ⟨d, ds, rfl⟩ := List.exists_cons_of_ne_nil (isPiece_ne_nil h)
  obtain rfl : d = c := by simpa using hc
  refine kind_of_isPiece h fun rest => ?_
  simp only [isLineBreak, Bool.or_eq_true, beq_iff_eq] at hbreak
  rcases hbreak with rfl | rfl <;> rfl

/-- Behind a comment stands a line break, if anything does. -/
theorem isChain_scan (cs : List Char) :
    (scan cs).IsChain fun l m => l.kind = .comment → m.kind = .newline := by
  have h := cuts_scan cs
  generalize scan cs = lexemes at h ⊢
  induction lexemes with
  | nil => exact .nil
  | cons l ls ih =>
    obtain ⟨hl, hls⟩ := h
    refine List.isChain_cons.mpr ⟨fun m hm hk => ?_, ih hls⟩
    obtain ⟨ls, rfl⟩ : ∃ rest, ls = m :: rest := by
      cases ls with
      | nil => cases hm
      | cons m' ls =>
        cases hm
        exact ⟨ls, rfl⟩
    rw [cut_iff_isPiece, hk] at hl
    obtain ⟨ds, -, hrun⟩ := hl
    have hm := (cut_iff_isPiece _ _).mp hls.1
    obtain ⟨c, ms, hc⟩ := List.exists_cons_of_ne_nil (isPiece_ne_nil hm)
    have hends := hrun.ends c (by simp [hc])
    refine newline_of_isPiece hm (c := c) (by simp [hc]) ?_
    simpa [← not_isLineBreak_iff] using hends

/-- Blanks are no lines: behind a comment stands a line break all the same. -/
theorem isChain_inked {ls : List Lexeme}
    (h : ls.IsChain fun l m => l.kind = .comment → m.kind = .newline) :
    (inked ls).IsChain fun l m => l.kind = .comment → m.kind = .newline := by
  induction ls with
  | nil => exact .nil
  | cons l ls ih =>
    obtain ⟨hl, hls⟩ := List.isChain_cons.mp h
    by_cases hk : l.kind = .whitespace
    · rw [inked_cons_of_blank ls hk]
      exact ih hls
    · rw [inked_cons ls (bne_iff_ne.mpr hk)]
      refine List.isChain_cons.mpr ⟨fun m hm hc => ?_, ih hls⟩
      cases ls with
      | nil => cases hm
      | cons m' ls =>
        have hm' := hl m' rfl hc
        have hkeep : inked (m' :: ls) = m' :: inked ls := inked_cons ls (by simp [hm'])
        rw [hkeep] at hm
        cases hm
        exact hm'

theorem kind_of_mem_scan {cs : List Char} {l : Lexeme} (h : l ∈ scan cs) :
    l.kind ≠ .endOfInput ∧ l.kind ≠ .endOfSource ∧ l.text ≠ "" := by
  obtain ⟨pre, post, hsplit⟩ := List.append_of_mem h
  have hpiece := ((segmentation_iff cs (scan cs)).mpr rfl).isPiece pre l post hsplit
  refine ⟨?_, ?_, ?_⟩
  · intro hk
    rw [hk] at hpiece
    exact hpiece
  · intro hk
    rw [hk] at hpiece
    exact hpiece
  · intro ht
    exact isPiece_ne_nil hpiece (by rw [ht]; rfl)

end Lexeme

namespace TokenStream

theorem kind_of_mem_visible {source : Nat} {text : String} {t : Token}
    (h : t ∈ visible source text) :
    t.kind ≠ .endOfInput ∧ t.kind ≠ .endOfSource ∧ t.literal ≠ "" :=
  Lexeme.kind_of_mem_scan (l := t.lexeme) (Token.mem_place (List.mem_filter.mp h).1)

theorem isChain_visible (source : Nat) (text : String) :
    (visible source text).IsChain fun t u => t.kind = .comment → u.kind = .newline := by
  have h := Lexeme.isChain_inked (Lexeme.isChain_scan text.toList)
  rw [← map_lexeme_visible source, List.isChain_map] at h
  exact h

/-- What holds of the tokens of a text and of the marks between texts holds of all. -/
theorem forall_mem_ofSourcesFrom {P : Token → Prop}
    (text : ∀ source text, ∀ t ∈ visible source text, P t)
    (mark : ∀ position source, P ⟨.endOfSource, "", position, source⟩) (source : Nat)
    (texts : List String) : ∀ t ∈ (ofSourcesFrom source texts).tokens, P t := by
  fun_induction ofSourcesFrom source texts with
  | case1 => simp
  | case2 source t => exact text source t
  | case3 source t texts hne later last ih =>
    exact List.forall_mem_append.mpr ⟨text source t, List.forall_mem_cons.mpr ⟨mark _ _, ih⟩⟩

theorem lexeme_last_ofSourcesFrom (source : Nat) (texts : List String) :
    (ofSourcesFrom source texts).last.lexeme = ⟨.endOfInput, ""⟩ := by
  fun_induction ofSourcesFrom source texts with
  | case1 => rfl
  | case2 => rfl
  | case3 source t texts hne later last ih => exact ih

/-- The end of input is the last token. -/
theorem ended_ofSources (texts : List String) : (ofSources texts).Ended :=
  ⟨forall_mem_ofSourcesFrom (fun _ _ _ h => (kind_of_mem_visible h).1) (fun _ _ => by simp) 0 texts,
    congrArg Lexeme.kind (lexeme_last_ofSourcesFrom 0 texts)⟩

/-- A comment has a mark at least. -/
theorem literal_ne_of_comment {texts : List String} {t : Token} (h : t ∈ (ofSources texts).tokens)
    (ht : t.kind = .comment) : t.literal ≠ "" :=
  forall_mem_ofSourcesFrom (P := fun t => t.kind = .comment → t.literal ≠ "")
    (fun _ _ _ h _ => (kind_of_mem_visible h).2.2) (fun _ _ h => by cases h) 0 texts t h ht

/-- Behind a comment stands the end of its line. -/
theorem isChain_ofSources (texts : List String) :
    (ofSources texts).tokens.IsChain fun t u => t.kind = .comment → u.kind.endsLine := by
  have hvisible (source : Nat) (text : String) :
      (visible source text).IsChain fun t u => t.kind = .comment → u.kind.endsLine :=
    (isChain_visible source text).imp fun t u h ht => by rw [h ht]; rfl
  unfold ofSources
  generalize (0 : Nat) = source
  fun_induction ofSourcesFrom source texts with
  | case1 => exact .nil
  | case2 source t => exact hvisible source t
  | case3 source t texts hne later last ih =>
    refine List.isChain_append.mpr ⟨hvisible source t, List.isChain_cons.mpr ⟨?_, ih⟩, ?_⟩
    · intro u hu h
      cases h
    · intro u hu v hv hc
      cases hv
      rfl

end TokenStream
end KnittingPattern
