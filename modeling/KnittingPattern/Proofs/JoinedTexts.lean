import KnittingPattern.Proofs.SameDescriptions
import KnittingPattern.Proofs.TextSeams

/-! # Several texts are read as one

Texts of which all but the last end in a line break mean what their concatenation means, but for one
thing: no group goes on from one text to the next.  Their descriptions differ only if a text ends in
comments that describe nothing in it.  Main theorem: `Pattern.ofSources_eq_join`. -/

namespace KnittingPattern

open Token (Kind)
open Lexeme (Joins)

namespace Reader

variable {strict : Bool} {s : Spot} {ls ms : List Lexeme} {ts us : List Token} {r r' q q' : Reader}
  {t : Token}

/-- Where texts meet, nothing but an open group is in the way. -/
theorem step_seam {run : Run} {d : Description} (hp : r.place = .between run d)
    (ht : t.kind = .newline ∨ t.kind = .endOfSource) :
    (∃ q, r.step t = .ok q ∧ q.plain = r.plain) ∨
      ∃ p p', r.step t = .error (.unclosedGroup p p') := by
  rcases ht with ht | ht
  · obtain ⟨title, groups, ss, place⟩ := r
    obtain ⟨kind, literal, position, source⟩ := t
    obtain rfl : place = .between run d := hp
    obtain rfl : kind = .newline := ht
    refine .inl ?_
    cases run with
    | line b => cases b <;> exact ⟨_, rfl, rfl⟩
    | _ => exact ⟨_, rfl, rfl⟩
  · have hstep : r.step t = r.statement d t := by
      rw [step, hp]
      exact between_eq_statement r run d (by simp [ht]) (by simp [ht])
    cases hg : r.groups with
    | nil =>
      refine .inl ⟨{ r with place := .between .none d }, ?_, by simp [plain, hp, Place.plain]⟩
      simp [hstep, statement, ht, hg, goto]
    | cons g groups => exact .inr ⟨t.position, g.lbrace, by simp [hstep, statement, ht, hg]⟩

/-- Where nothing stands since the last statement, nothing changes. -/
theorem eq_of_step_seam (hp : r.place = .between .none .none)
    (ht : t.kind = .newline ∨ t.kind = .endOfSource) (hq : r.step t = .ok q) : q = r := by
  obtain ⟨title, groups, ss, place⟩ := r
  obtain ⟨kind, literal, position, source⟩ := t
  obtain rfl : place = .between .none .none := hp
  rcases ht with ht | ht
  · obtain rfl : kind = .newline := ht
    cases hq
    rfl
  · obtain rfl : kind = .endOfSource := ht
    cases groups <;> cases hq
    rfl

theorem fits_seam (hs : s.Meets strict) (h : s.Fits r.place)
    (ht : t.kind = .newline ∨ t.kind = .endOfSource) (hq : r.step t = .ok q) :
    s.Fits q.place := by
  have hnext := fits_step h hq
  rwa [Lexeme.next_of_meets hs ht] at hnext

theorem ne_line_of_meets (hs : s.Meets strict) : s ≠ .line := by
  rcases hs with rfl | ⟨-, rfl⟩ <;> simp

/-- What is read of several texts is read of their concatenation. -/
theorem exists_run_of_joins (h : Joins strict s ls ms) (hts : ts.map Token.lexeme = ls)
    (hus : us.map Token.lexeme = ms) (hr : r.plain = r'.plain) (hs : s.Fits r'.place)
    (hq' : r'.run us = .ok q') : ∃ q, r.run ts = .ok q ∧ q.plain = q'.plain := by
  induction h generalizing ts us r r' with
  | nil =>
    obtain rfl := List.map_eq_nil_iff.mp hts
    obtain rfl := List.map_eq_nil_iff.mp hus
    cases hq'
    exact ⟨r, rfl, hr⟩
  | both hl h ih =>
    obtain ⟨t, ts, rfl, rfl, hts'⟩ := List.map_eq_cons_iff.mp hts
    obtain ⟨u, us, rfl, rfl, hus'⟩ := List.map_eq_cons_iff.mp hus
    obtain ⟨p', hp', hq'⟩ := exists_of_run_cons hq'
    obtain ⟨p, hp, hplain⟩ := exists_step_of_same hr hl.symm hp'
    rw [run_cons ts hp]
    have hfits := fits_step hs hp'
    rw [show u.kind = t.kind from hl.kind] at hfits
    exact ih hts' hus' hplain hfits hq'
  | seam hm hk h ih =>
    obtain ⟨u, us, rfl, rfl, hus'⟩ := List.map_eq_cons_iff.mp hus
    obtain ⟨p', hp', hq'⟩ := exists_of_run_cons hq'
    obtain ⟨run, d, hplace⟩ := hs.between (ne_line_of_meets hm)
    obtain ⟨u', hu', hplain⟩ | ⟨p, p'', he⟩ := step_seam hplace hk
    · obtain rfl := Except.ok.inj (hu'.symm.trans hp')
      exact ih hts hus' (hr.trans hplain.symm) (fits_seam hm hs hk hp') hq'
    · rw [he] at hp'
      cases hp'

/-- What is read of the concatenation of several texts is read of the texts, unless a group is open
where two of them meet. -/
theorem exists_run_or_unclosed_of_joins (h : Joins strict s ls ms) (hts : ts.map Token.lexeme = ls)
    (hus : us.map Token.lexeme = ms) (hr : r'.plain = r.plain) (hs : s.Fits r'.place)
    (hq : r.run ts = .ok q) : (∃ q', r'.run us = .ok q' ∧ q'.plain = q.plain) ∨
      ∃ p p', r'.run us = .error (.unclosedGroup p p') := by
  induction h generalizing ts us r r' with
  | nil =>
    obtain rfl := List.map_eq_nil_iff.mp hts
    obtain rfl := List.map_eq_nil_iff.mp hus
    cases hq
    exact .inl ⟨r', rfl, hr⟩
  | both hl h ih =>
    obtain ⟨t, ts, rfl, rfl, hts'⟩ := List.map_eq_cons_iff.mp hts
    obtain ⟨u, us, rfl, rfl, hus'⟩ := List.map_eq_cons_iff.mp hus
    obtain ⟨p, hp, hq⟩ := exists_of_run_cons hq
    obtain ⟨p', hp', hplain⟩ := exists_step_of_same hr hl hp
    rw [run_cons us hp']
    have hfits := fits_step hs hp'
    rw [show u.kind = t.kind from hl.kind] at hfits
    exact ih hts' hus' hplain hfits hq
  | seam hm hk h ih =>
    obtain ⟨u, us, rfl, rfl, hus'⟩ := List.map_eq_cons_iff.mp hus
    obtain ⟨run, d, hplace⟩ := hs.between (ne_line_of_meets hm)
    obtain ⟨p', hp', hplain⟩ | ⟨p, p', he⟩ := step_seam hplace hk
    · rw [run_cons us hp']
      exact ih hts hus' (hplain.trans hr) (fits_seam hm hs hk hp') hq
    · exact .inr ⟨p, p', run_cons_error us he⟩

/-- What is read of both has the same descriptions, if texts meet only where no comments stand since
the last statement. -/
theorem alike_of_joins (h : Joins true s ls ms) (hts : ts.map Token.lexeme = ls)
    (hus : us.map Token.lexeme = ms) (hr : r'.plain = r.plain) (halike : Alike r r')
    (hs : s.Fits r'.place) (hq : r.run ts = .ok q) (hq' : r'.run us = .ok q') : Alike q q' := by
  induction h generalizing ts us r r' with
  | nil =>
    obtain rfl := List.map_eq_nil_iff.mp hts
    obtain rfl := List.map_eq_nil_iff.mp hus
    cases hq
    cases hq'
    exact halike
  | both hl h ih =>
    obtain ⟨t, ts, rfl, rfl, hts'⟩ := List.map_eq_cons_iff.mp hts
    obtain ⟨u, us, rfl, rfl, hus'⟩ := List.map_eq_cons_iff.mp hus
    obtain ⟨p, hp, hq⟩ := exists_of_run_cons hq
    obtain ⟨p', hp', hq'⟩ := exists_of_run_cons hq'
    obtain ⟨v, hv, hplain⟩ := exists_step_of_same hr hl hp
    obtain rfl := Except.ok.inj (hv.symm.trans hp')
    have hfits := fits_step hs hp'
    rw [show u.kind = t.kind from hl.kind] at hfits
    exact ih hts' hus' hplain (halike.step hr hl hp hp') hfits hq hq'
  | seam hm hk h ih =>
    obtain ⟨u, us, rfl, rfl, hus'⟩ := List.map_eq_cons_iff.mp hus
    obtain ⟨p', hp', hrun'⟩ := exists_of_run_cons hq'
    obtain rfl | ⟨hm, -⟩ := hm
    · obtain rfl := eq_of_step_seam hs hk hp'
      exact ih hts hus' hr halike hs hq hrun'
    · cases hm

end Reader

namespace Pattern

variable {texts : List String}

/-- The tokens of several texts and those of their concatenation. -/
theorem joins_ofSources (strict : Bool)
    (hbroken : ∀ text ∈ texts.dropLast, Lexeme.Broken text.toList)
    (hlast : strict → ∀ text ∈ texts.dropLast, ∀ line ∈ Lexeme.lastWritten? text.toList,
      Lexeme.isRemark line = false) :
    let joined := TokenStream.ofText (String.join texts)
    let listed := TokenStream.ofSources texts
    Joins strict .start ((joined.tokens ++ [joined.last]).map Token.lexeme)
      ((listed.tokens ++ [listed.last]).map Token.lexeme) := by
  intro joined listed
  have htokens : joined.tokens.map Token.lexeme =
      Lexeme.inked (Lexeme.scan (texts.flatMap String.toList)) := by
    rw [← String.toList_join]
    exact TokenStream.map_lexeme_visible 0 _
  have hlisted : listed.last.lexeme = ⟨.endOfInput, ""⟩ :=
    TokenStream.lexeme_last_ofSourcesFrom 0 texts
  rw [List.map_append, List.map_append, htokens, List.map_singleton, List.map_singleton, hlisted]
  exact (Lexeme.joins_ofSourcesFrom (fun _ => .inl rfl) hbroken hlast 0).concat .rfl

/-- Several texts mean their concatenation, if all but the last end in a line break.  What is read
of the texts is read of the concatenation.  What is read of the concatenation is read of the texts,
or else a group is open where two of them meet.  If no text but the last ends in comments that
describe nothing in it, the descriptions are the same. -/
theorem ofSources_eq_join (hbroken : ∀ text ∈ texts.dropLast, Lexeme.Broken text.toList) :
    (∀ b, ofSources texts = .ok b →
      ∃ b', ofText (String.join texts) = .ok b' ∧ b'.plain = b.plain) ∧
    (∀ b', ofText (String.join texts) = .ok b' →
      (∃ b, ofSources texts = .ok b ∧ b.plain = b'.plain) ∨
        ∃ p q, ofSources texts = .error (.unclosedGroup p q)) ∧
    ((∀ text ∈ texts.dropLast, ∀ line ∈ Lexeme.lastWritten? text.toList,
        Lexeme.isRemark line = false) →
      ∀ b b', ofSources texts = .ok b → ofText (String.join texts) = .ok b' →
        b'.placeless = b.placeless) := by
  have hjoins := joins_ofSources false hbroken (fun h => by cases h)
  refine ⟨fun b hb => ?_, fun b' hb' => ?_, fun hlast b b' hb hb' => ?_⟩
  · obtain ⟨q', hq', rfl⟩ := exists_of_read_ok hb
    obtain ⟨q, hq, hplain⟩ := Reader.exists_run_of_joins hjoins rfl rfl rfl Reader.fits_start hq'
    exact ⟨_, read_eq_ok hq, Block.plain_eq hplain _ _ _ _ _ _⟩
  · obtain ⟨q, hq, rfl⟩ := exists_of_read_ok hb'
    obtain ⟨q', hq', hplain⟩ | ⟨p, p', he⟩ :=
      Reader.exists_run_or_unclosed_of_joins hjoins rfl rfl rfl Reader.fits_start hq
    · exact .inl ⟨_, read_eq_ok hq', Block.plain_eq hplain _ _ _ _ _ _⟩
    · exact .inr ⟨p, p', read_eq_error_iff.mpr he⟩
  · have hlines := areLines_of_ofSources hb
    have hlines' := areLines_of_ofSources hb'
    obtain ⟨q', hq', rfl⟩ := exists_of_read_ok hb
    obtain ⟨q, hq, rfl⟩ := exists_of_read_ok hb'
    obtain ⟨u, hu, hplain⟩ := Reader.exists_run_of_joins hjoins rfl rfl rfl Reader.fits_start hq'
    obtain rfl := Except.ok.inj (hu.symm.trans hq)
    have hjoined := joins_ofSources true hbroken fun _ => hlast
    have halike : u.Alike q' := Reader.alike_of_joins hjoined rfl rfl rfl
      ⟨rfl, .nil, .nil, .between rfl⟩ Reader.fits_start hq hq'
    exact (Block.placeless_of_alike halike.statements halike.title hlines' hlines
      (Block.plain_eq hplain.symm _ _ _ _ _ _)).symm

/-- A row under a title, and another one with a comment behind it. -/
def twoTexts : Block :=
  ⟨[.row [.stitch ⟨3, 1⟩ ⟨⟨3, 1⟩, "k"⟩ []] [] .none,
    .row [.stitch ⟨2, 1⟩ ⟨⟨2, 1⟩, "p"⟩ []] [] ⟨[⟨⟨2, 3⟩, "; purl"⟩]⟩], ⟨1, 1⟩, ⟨2, 8⟩,
    ⟨[⟨⟨1, 1⟩, "; Scarf"⟩]⟩⟩

/-- The carriage return at the end of the first text and the line feed of the second one are one
line break of the concatenation. -/
theorem ofSources_eq_join_twoTexts :
    ofSources ["; Scarf\n\nk\r", "\np ; purl"] = .ok twoTexts ∧
    ∃ b', ofText "; Scarf\n\nk\r\np ; purl" = .ok b' ∧ b'.placeless = twoTexts.placeless := by
  have h : ofSources ["; Scarf\n\nk\r", "\np ; purl"] = .ok twoTexts := rfl
  have hbroken : ∀ text ∈ ["; Scarf\n\nk\r", "\np ; purl"].dropLast,
      Lexeme.Broken text.toList := by
    simp [Lexeme.Broken, isLineBreak]
  have hlast : ∀ text ∈ ["; Scarf\n\nk\r", "\np ; purl"].dropLast,
      ∀ line ∈ Lexeme.lastWritten? text.toList, Lexeme.isRemark line = false := by
    decide
  obtain ⟨hlisted, -, hdescriptions⟩ := ofSources_eq_join hbroken
  obtain ⟨b', hb', -⟩ := hlisted twoTexts h
  exact ⟨h, b', hb', hdescriptions hlast twoTexts b' h hb'⟩

/-- A group does not go on in the next text. -/
example : ofSources ["\x7b\n", "k\n\x7d"] = .error (.unclosedGroup ⟨2, 0⟩ ⟨1, 1⟩) ∧
    ∃ b, ofText "\x7b\nk\n\x7d" = .ok b := ⟨rfl, _, rfl⟩

end Pattern
end KnittingPattern
