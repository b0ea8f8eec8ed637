import Mathlib.Data.Set.Function
import KnittingPattern.Proofs.BalancedRows

/-! # Rows told apart by their texts

The text of a row separates fragments by blanks, which fragments have in them, and by commas, which
are left out beside braces.  It is told where a fragment ends all the same: behind one that is no
opening brace the text ends, or a comma stands, or a blank and a closing brace, and in the fragment
none of these do.  Main theorem: `Compilation.text_injOn_rows`. -/

namespace KnittingPattern

open Fragment (isOpening isClosing Unmarked Plain)

namespace Fragment

/-- Characters that do not divide a row. -/
def UnmarkedChars (cs : List Char) : Prop := ∀ c ∈ cs, c ≠ '{' ∧ c ≠ '}' ∧ c ≠ ','

theorem UnmarkedChars.of_cons {c : Char} {cs : List Char} (h : UnmarkedChars (c :: cs)) :
    (c ≠ '{' ∧ c ≠ '}' ∧ c ≠ ',') ∧ UnmarkedChars cs :=
  List.forall_mem_cons.mp h

/-- The first character of a plain fragment tells whether it is an opening brace, and behind the
first one of any other there are no marks. -/
theorem Plain.exists_cons {f : String} (h : Plain f) (hf : f ≠ Fragment.opening) :
    ∃ c cs, f.toList = c :: cs ∧ c ≠ '{' ∧ UnmarkedChars cs := by
  cases h with
  | opening => exact absurd rfl hf
  | @closing text h => exact ⟨'}', text.toList, by simp, by decide, h⟩
  | stitch hne h =>
    obtain ⟨c, cs, hcs⟩ := List.exists_cons_of_ne_nil (mt String.toList_eq_nil_iff.mp hne)
    have hall : UnmarkedChars (c :: cs) := fun x hx => h x (hcs ▸ hx)
    exact ⟨c, cs, hcs, hall.of_cons.1.1, hall.of_cons.2⟩

/-- What stands behind a fragment that is no opening brace. -/
inductive Behind : List Char → Prop
  | nothing : Behind []
  | comma (cs : List Char) : Behind (',' :: cs)
  | closing (cs : List Char) : Behind (' ' :: '}' :: cs)

namespace Behind

variable {cs cs' t t' : List Char}

/-- It does not stand behind characters without marks as well. -/
theorem eq_nil_of_append (ht : Behind t) (hcs : UnmarkedChars cs) (h : Behind (cs ++ t)) :
    cs = [] := by
  cases cs with
  | nil => rfl
  | cons c cs =>
    obtain ⟨hc, hrest⟩ := hcs.of_cons
    generalize hu : c :: cs ++ t = u at h
    cases h with
    | nothing => cases hu
    | comma =>
      cases hu
      exact absurd rfl hc.2.2
    | closing us =>
      have hblank : cs ++ t = '}' :: us := (List.cons.inj hu).2
      cases cs with
      | nil =>
        rw [List.nil_append] at hblank
        rw [hblank] at ht
        cases ht
      | cons d ds =>
        have hd : d = '}' := (List.cons.inj hblank).1
        exact absurd hd hrest.of_cons.1.2.1

theorem eq_of_append_eq (ht : Behind t) (ht' : Behind t') (hcs : UnmarkedChars cs)
    (hcs' : UnmarkedChars cs') (h : cs ++ t = cs' ++ t') : cs = cs' ∧ t = t' := by
  rcases List.append_eq_append_iff.mp h with ⟨ds, rfl, rfl⟩ | ⟨ds, rfl, rfl⟩
  · have hds := ht'.eq_nil_of_append (fun c hc => hcs' c (List.mem_append_right _ hc)) ht
    simp [hds]
  · have hds := ht.eq_nil_of_append (fun c hc => hcs c (List.mem_append_right _ hc)) ht'
    simp [hds]

end Behind
end Fragment

open Fragment (Behind)

namespace Row

variable {f g : String} {fs gs row row' : List String}

theorem separator_cons :
    (separator f (g :: gs)).toList = if comma f (g :: gs) then [',', ' '] else [' '] := by
  rw [separator, String.toList_append]
  split <;> simp

/-- What is written behind a fragment that is no opening brace. -/
theorem behind_separator (hf : f ≠ Fragment.opening) :
    Behind (separator f fs ++ text fs).toList := by
  have ho : isOpening f = false := beq_eq_false_iff_ne.mpr hf
  cases fs with
  | nil => exact .nothing
  | cons g gs =>
    by_cases hc : isClosing g
    · obtain ⟨cs, hcs⟩ : ∃ cs, g.toList = '}' :: cs := by
        simpa [isClosing, List.head?_eq_some_iff] using hc
      have hbehind := Behind.closing (cs ++ (separator g gs ++ text gs).toList)
      simpa [separator, comma, ho, hc, text_cons, hcs] using hbehind
    · have hbehind := Behind.comma (' ' :: (text (g :: gs)).toList)
      simpa [separator, comma, ho, hc] using hbehind

/-- Texts that are equal begin with the same fragment. -/
theorem eq_of_text_cons_eq (hf : Plain f) (hg : Plain g)
    (h : text (f :: fs) = text (g :: gs)) :
    f = g ∧ separator f fs ++ text fs = separator g gs ++ text gs := by
  rw [text_cons, text_cons] at h
  have hlist := congrArg String.toList h
  rw [String.toList_append (s := f), String.toList_append (s := g)] at hlist
  by_cases hfo : f = Fragment.opening <;> by_cases hgo : g = Fragment.opening
  · rw [hfo, hgo] at hlist ⊢
    exact ⟨rfl, String.toList_inj.mp (List.append_cancel_left hlist)⟩
  · obtain ⟨d, ds, hds, hd, -⟩ := hg.exists_cons hgo
    rw [hfo, hds] at hlist
    exact absurd (List.cons.inj hlist).1.symm hd
  · obtain ⟨c, cs, hcs, hc, -⟩ := hf.exists_cons hfo
    rw [hgo, hcs] at hlist
    exact absurd (List.cons.inj hlist).1 hc
  · obtain ⟨c, cs, hcs, -, hfu⟩ := hf.exists_cons hfo
    obtain ⟨d, ds, hds, -, hgu⟩ := hg.exists_cons hgo
    rw [hcs, hds] at hlist
    obtain ⟨hcd, hrest⟩ := List.cons.inj hlist
    obtain ⟨hu, hsep⟩ := (behind_separator hfo).eq_of_append_eq (behind_separator hgo) hfu hgu
      hrest
    exact ⟨String.toList_inj.mp (by rw [hcs, hds, hcd, hu]), String.toList_inj.mp hsep⟩

/-- Behind the same fragment, a row that goes on is not written as one that ends, nor one that goes
on with a closing brace as one that does not. -/
theorem text_eq_of_separator_eq (h : separator f fs ++ text fs = separator f gs ++ text gs) :
    text fs = text gs := by
  have hlist := congrArg String.toList h
  rw [String.toList_append, String.toList_append] at hlist
  cases fs with
  | nil =>
    cases gs with
    | nil => rfl
    | cons g gs =>
      rw [separator_cons] at hlist
      split at hlist <;> cases hlist
  | cons f' fs =>
    cases gs with
    | nil =>
      rw [separator_cons] at hlist
      split at hlist <;> cases hlist
    | cons g gs =>
      rw [separator_cons, separator_cons] at hlist
      split at hlist <;> split at hlist <;> simp_all [String.toList_inj]

/-- Plain rows with the same text are the same row. -/
theorem text_injOn_plain : Set.InjOn text {row | ∀ f ∈ row, Plain f} := by
  intro row hrow row' hrow' h
  induction row generalizing row' with
  | nil =>
    cases row' with
    | nil => rfl
    | cons g gs =>
      rw [text_nil, text_cons] at h
      exact absurd (String.append_eq_empty_iff.mp h.symm).1 (hrow' g List.mem_cons_self).ne_empty
  | cons f fs ih =>
    cases row' with
    | nil =>
      rw [text_nil, text_cons] at h
      exact absurd (String.append_eq_empty_iff.mp h).1 (hrow f List.mem_cons_self).ne_empty
    | cons g gs =>
      obtain ⟨hf, hfs⟩ := List.forall_mem_cons.mp hrow
      obtain ⟨hg, hgs⟩ := List.forall_mem_cons.mp hrow'
      obtain ⟨rfl, hsep⟩ := eq_of_text_cons_eq hf hg h
      rw [ih hfs hgs (text_eq_of_separator_eq hsep)]

end Row

/-- Rows of plain fragments are told apart by their texts, and all rows of a pattern that is read
and laid out are such, and those of its states. -/
theorem Compilation.text_injOn_rows :
    Set.InjOn Row.text {row | ∀ f ∈ row, Plain f} ∧
    ∀ (texts : List String) (b : Block) (rs : List Record),
      Pattern.ofSources texts = .ok b → b.records = .ok rs →
        (∀ c, .content c ∈ rs → ∀ f ∈ c.row, Plain f) ∧
        ∃ ss, states b = .ok ss ∧ ∀ s ∈ ss, ∀ f ∈ s.row, Plain f := by
  refine ⟨Row.text_injOn_plain, fun texts b rs h hr => ?_⟩
  have hrows : ∀ c, .content c ∈ rs → ∀ f ∈ c.row, Plain f := fun c hc => b.plain_records h hr hc
  exact ⟨hrows, exists_states_rows (P := fun row => ∀ f ∈ row, Plain f) h hr hrows⟩

/-- With a comma in a fragment, two rows may have one text. -/
example : Row.text ["k, p"] = Row.text ["k", "p"] := by decide

theorem Compilation.text_injOn_rows_cutBraces :
    ∃ ss, states Block.cutBraces = .ok ss ∧
      ∀ s ∈ ss, ∀ row : List String, (∀ f ∈ row, Plain f) → Row.text row = Row.text s.row →
        row = s.row := by
  obtain ⟨hinj, hrows⟩ := text_injOn_rows
  obtain ⟨-, ss, hss, hplain⟩ := hrows
    ["g = \x7b\nyo\n\x7d\nm = \x7bp(2cm) \x7b\x7d\x7d(2)\nk m g p(*)\n"]
    Block.cutBraces Block.cutBracesRecords rfl rfl
  exact ⟨ss, hss, fun s hs row hrow ht => hinj hrow (hplain s hs) ht⟩

end KnittingPattern
