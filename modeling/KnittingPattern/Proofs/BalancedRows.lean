import KnittingPattern.Proofs.BinaryText
import KnittingPattern.Proofs.RowContexts
import KnittingPattern.Proofs.RowFragments
import KnittingPattern.Proofs.WovenRows

/-! # The braces of rows

In a row that is laid out as many braces close as open, and none closes before it opens.  Nothing
but braces has a brace or a comma in it, for names, sizes and what measures them have none.  Main
theorem: `Compilation.formed_rows`. -/

namespace KnittingPattern

namespace Fragment

/-- A text without the characters that divide a row. -/
def Unmarked (s : String) : Prop := ∀ c ∈ s.toList, c ≠ '{' ∧ c ≠ '}' ∧ c ≠ ','

instance (s : String) : Decidable (Unmarked s) := List.decidableBAll _ _

/-- A fragment as patterns have them: an opening brace, a closing brace with a text without marks
behind it, or a text without marks that is not empty. -/
inductive Plain : String → Prop
  | opening : Plain Fragment.opening
  | closing {text : String} (h : Unmarked text) : Plain ("\x7d" ++ text)
  | stitch {f : String} (hne : f ≠ "") (h : Unmarked f) : Plain f

theorem isOpening_opening : isOpening opening := by decide

theorem isClosing_opening : isClosing opening = false := by decide

theorem isOpening_closing (times : String) : isOpening (closing times) = false := by
  unfold closing
  split
  · decide
  · have hne : "\x7d " ++ times ≠ opening := fun h => by
      have hlist := congrArg String.toList h
      simp [opening] at hlist
    simpa [isOpening] using hne

theorem isClosing_closing (times : String) : isClosing (closing times) := by
  unfold isClosing closing
  split <;> simp

/-- A stitch is no brace. -/
theorem not_brace_of_isStitch {f : String} (h : isStitch f) :
    isOpening f = false ∧ isClosing f = false := by
  simpa [isStitch] using h

end Fragment

open Fragment (isOpening isClosing isStitch Unmarked)

namespace Row

/-- Of what is read of a row no more fragments close than open, and of the whole row as many. -/
structure Balanced (row : List String) : Prop where
  reading : ∀ read, read <+: row → read.countP isClosing ≤ read.countP isOpening
  whole : row.countP isClosing = row.countP isOpening

namespace Balanced

variable {row inner : List String}

theorem nil : Balanced [] where
  reading read h := by
    rw [List.prefix_nil.mp h]
    exact Nat.le_refl _
  whole := rfl

theorem append (h : Balanced row) (h' : Balanced inner) : Balanced (row ++ inner) where
  reading read hread := by
    rcases List.prefix_or_prefix_of_prefix hread (List.prefix_append row inner) with hp | ⟨rest, rfl⟩
    · exact h.reading read hp
    · have hrest := h'.reading rest ((List.prefix_append_right_inj row).mp hread)
      rw [List.countP_append, List.countP_append, h.whole]
      exact Nat.add_le_add_left hrest _
  whole := by rw [List.countP_append, List.countP_append, h.whole, h'.whole]

theorem stitch {f : String} (hf : isStitch f) : Balanced [f] := by
  obtain ⟨ho, hc⟩ := Fragment.not_brace_of_isStitch hf
  refine ⟨fun read hread => ?_, by simp [ho, hc]⟩
  rcases List.prefix_cons_iff.mp hread with rfl | ⟨rest, rfl, hrest⟩
  · exact Nat.le_refl _
  · rw [List.prefix_nil.mp hrest]
    simp [hc]

/-- Braces around a balanced row. -/
theorem braces (h : Balanced inner) (times : String) :
    Balanced (Fragment.opening :: (inner ++ [Fragment.closing times])) := by
  have ho := Fragment.isOpening_opening
  have hc := Fragment.isClosing_opening
  have ho' := Fragment.isOpening_closing times
  have hc' := Fragment.isClosing_closing times
  refine ⟨fun read hread => ?_, by simp [h.whole, ho, hc, ho', hc']⟩
  rcases List.prefix_cons_iff.mp hread with rfl | ⟨rest, rfl, hrest⟩
  · exact Nat.le_refl _
  · rw [List.countP_cons_of_neg (by simp [hc]), List.countP_cons_of_pos ho]
    rcases List.prefix_concat_iff.mp hrest with rfl | hp
    · simp [h.whole, ho', hc']
    · exact Nat.le_succ_of_le (h.reading rest hp)

end Balanced

theorem Woven.balanced {hollow : Bool} {row : List String} (h : Woven hollow row) :
    Balanced row := by
  induction h with
  | nil => exact .nil
  | stitch _ hf ih => exact ih.append (.stitch hf)
  | braces _ _ _ ih ihi => exact ih.append (ihi.braces _)

end Row

namespace Fragment.Unmarked

variable {s t : String}

/-- Characters of a sort that no mark is of. -/
theorem of_forall (sort : Char → Bool)
    (hsort : sort '{' = false ∧ sort '}' = false ∧ sort ',' = false)
    (h : ∀ c ∈ s.toList, sort c) : Unmarked s := by
  intro c hc
  refine ⟨?_, ?_, ?_⟩
  · rintro rfl
    exact Bool.eq_false_iff.mp hsort.1 (h _ hc)
  · rintro rfl
    exact Bool.eq_false_iff.mp hsort.2.1 (h _ hc)
  · rintro rfl
    exact Bool.eq_false_iff.mp hsort.2.2 (h _ hc)

theorem append (hs : Unmarked s) (ht : Unmarked t) : Unmarked (s ++ t) := by
  intro c hc
  rw [String.toList_append] at hc
  exact (List.mem_append.mp hc).elim (hs c) (ht c)

theorem intercalate {texts : List String} (hs : Unmarked s) (h : ∀ t ∈ texts, Unmarked t) :
    Unmarked (s.intercalate texts) := by
  induction texts with
  | nil =>
    intro c hc
    simp at hc
  | cons t texts ih =>
    obtain ⟨ht, htexts⟩ := List.forall_mem_cons.mp h
    cases texts with
    | nil => simpa using ht
    | cons u texts =>
      rw [String.intercalate_cons_cons]
      exact (ht.append hs).append (ih htexts)

theorem of_isWord (h : isWord s) : Unmarked s := by
  refine of_forall Lexeme.isNamePart (by decide) fun c hc => ?_
  unfold isWord at h
  split at h
  · rename_i d ds hs
    rw [Bool.and_eq_true, List.all_eq_true] at h
    rw [hs] at hc
    rcases List.mem_cons.mp hc with rfl | hc
    · simp [Lexeme.isNamePart, h.1]
    · exact h.2 c hc
  · cases h

/-- Digits, and a sign or a point among them. -/
theorem of_number (h : ∀ c ∈ s.toList, Decimal.isDigit c ∨ c = '-' ∨ c = '.') : Unmarked s :=
  of_forall (fun c => Decimal.isDigit c || c == '-' || c == '.') (by decide)
    fun c hc => by simpa [or_assoc] using h c hc

theorem of_int (n : Int) : Unmarked (toString n) := by
  refine of_number fun c hc => ?_
  cases n with
  | ofNat n =>
    have hdigits : c ∈ Nat.toDigits 10 n := by simpa [toString, Int.repr] using hc
    exact .inl (Decimal.isDigit_of_mem_toDigits hdigits)
  | negSucc n =>
    have hdigits : c = '-' ∨ c ∈ Nat.toDigits 10 (n + 1) := by
      simpa [toString, Int.repr] using hc
    exact hdigits.elim (fun h => .inr (.inl h)) fun h => .inl (Decimal.isDigit_of_mem_toDigits h)

theorem of_fixed {digits m k : Nat} {c : Char} (h : c ∈ Binary64.fixed digits m k) :
    Decimal.isDigit c ∨ c = '.' := by
  unfold Binary64.fixed at h
  rcases List.mem_append.mp h with h | h
  · exact .inl (Decimal.isDigit_of_mem_toDigits h)
  · rcases List.mem_cons.mp h with rfl | h
    · exact .inr rfl
    · exact .inl (List.all_eq_true.mp (Decimal.all_isDigit_padded _ _) c h)

theorem of_binary64 (x : Binary64) : Unmarked x.text2 := by
  cases x with
  | nan => exact (by decide : Unmarked "NaN")
  | infinite negative =>
    cases negative
    · exact (by decide : Unmarked "inf")
    · exact (by decide : Unmarked "-inf")
  | finite negative m k canonical =>
    refine of_number fun c hc => ?_
    have hfixed : c ∈ Binary64.fixed 2 m k ∨ c = '-' := by
      simp only [Binary64.text2, Binary64.textWith, String.toList_ofList] at hc
      split at hc
      · exact (List.mem_cons.mp hc).symm
      · exact .inl hc
    exact hfixed.elim (fun h => (of_fixed h).imp_right .inr) fun h => .inr (.inl h)

end Fragment.Unmarked

section

variable {names : Names} (hn : names.InGrammar)

include hn

/-- Names and sizes of the grammar are written without marks. -/
theorem Expr.unmarked_text {e : Expr} (he : e.isArgument true) : Unmarked (e.text names) := by
  cases e with
  | ident id => exact .of_isWord (hn.isWord_rendering he)
  | size s =>
    have hamount : Unmarked (s.amount.text names) := by
      obtain ⟨position, amount, measure, before⟩ := s
      cases amount with
      | whole n => exact .of_int n
      | decimal x => exact .of_binary64 x
      | named id =>
        simp only [isArgument, Size.isWritten, Bool.and_eq_true] at he
        exact .of_isWord (hn.isWord_rendering he.1.1)
      | unstated =>
        intro c hc
        cases hc
    have hmark : Unmarked s.measure.mark := by
      cases s.measure <;> decide
    simp only [Expr.text, Size.text]
    split
    · split
      · decide
      · decide
    · split
      · have huntil : Unmarked "until " := by decide
        exact huntil.append (hamount.append hmark)
      · exact hamount.append hmark
  | stitch position name args => cases he
  | row es args => cases he
  | group lbrace rbrace args lines => cases he

theorem Brackets.unmarked_phrase {args : List Expr} (h : args.all (Expr.isArgument true)) :
    Unmarked (phrase names args) := by
  have hblank : Unmarked " " := by decide
  refine .intercalate hblank fun t ht => ?_
  obtain ⟨e, he, rfl⟩ := List.mem_map.mp ht
  exact e.unmarked_text hn (List.all_eq_true.mp h e he)

/-- A stitch is not empty and has no marks. -/
theorem Layout.unmarked_stitchFragment {name : Identifier} (h : isWord name.name) {args : List Expr}
    (ha : args.all (Expr.isArgument true)) :
    stitchFragment names name args ≠ "" ∧ Unmarked (stitchFragment names name args) := by
  have hword : isWord (names.rendering name) := hn.isWord_rendering h
  obtain ⟨c, hc, -⟩ := exists_letter_of_isWord hword
  have hne : names.rendering name ≠ "" := by
    intro hempty
    rw [hempty] at hc
    cases hc
  have hname := Unmarked.of_isWord hword
  have hphrase := Brackets.unmarked_phrase hn ha
  have hblank : Unmarked " " := by decide
  rw [stitchFragment_eq]
  split
  · exact ⟨hne, hname⟩
  · refine ⟨fun hempty => hne ?_, (hname.append hblank).append hphrase⟩
    have hlist := congrArg String.toList hempty
    simp at hlist

/-- All that names and arguments of the grammar are written as is plain. -/
theorem Layout.writes_plain : Writes names Fragment.Plain where
  opening := .opening
  closing args ha := by
    have hphrase := Brackets.unmarked_phrase hn ha
    have hblank : Unmarked " " := by decide
    unfold Fragment.closing
    split
    · exact .closing (by decide : Unmarked "")
    · exact .closing (hblank.append hphrase)
  stitch name args h ha :=
    .stitch (unmarked_stitchFragment hn h ha).1 (unmarked_stitchFragment hn h ha).2

end

namespace Fragment.Plain

variable {f : String}

theorem ne_empty (h : Plain f) : f ≠ "" := by
  cases h with
  | opening => decide
  | closing => simp [← String.toList_inj]
  | stitch hne => exact hne

theorem unmarked (h : Plain f) (ho : isOpening f = false) (hc : isClosing f = false) :
    Unmarked f := by
  cases h with
  | opening => simp [isOpening_opening] at ho
  | closing => simp [isClosing] at hc
  | stitch _ h => exact h

end Fragment.Plain

/-- A row whose braces are balanced and whose other fragments have no marks. -/
structure Row.Formed (row : List String) : Prop where
  balanced : Balanced row
  nonempty : ∀ f ∈ row, f ≠ ""
  unmarked : ∀ f ∈ row, isOpening f = false → isClosing f = false → Unmarked f

theorem Block.plain_records {texts : List String} {b : Block} {rs : List Record}
    (h : Pattern.ofSources texts = .ok b) (hr : b.records = .ok rs) {c : Content}
    (hc : .content c ∈ rs) : ∀ f ∈ c.row, Fragment.Plain f :=
  b.fragments_records h hr
    (Layout.writes_plain (Names.inGrammar_ofBlock (Pattern.areLines_of_ofSources h))) hc

theorem Block.formed_records {texts : List String} {b : Block} {rs : List Record}
    (h : Pattern.ofSources texts = .ok b) (hr : b.records = .ok rs) {c : Content}
    (hc : .content c ∈ rs) : Row.Formed c.row where
  balanced := (b.weave_records h hr c hc).balanced
  nonempty f hf := (b.plain_records h hr hc f hf).ne_empty
  unmarked f hf := (b.plain_records h hr hc f hf).unmarked

/-- The rows of states are rows that are laid out. -/
theorem Compilation.exists_states_rows {texts : List String} {b : Block} {rs : List Record}
    (h : Pattern.ofSources texts = .ok b) (hr : b.records = .ok rs) {P : List String → Prop}
    (hrows : ∀ c, .content c ∈ rs → P c.row) :
    ∃ ss, states b = .ok ss ∧ ∀ s ∈ ss, P s.row := by
  obtain ⟨-, -, ss, hss⟩ := b.records_unroll hr
  refine ⟨ss, hss, fun s hs => ?_⟩
  obtain ⟨rs', outer, desc, args, c, hr', hp⟩ := exists_context h hss hs
  cases hr.symm.trans hr'
  obtain ⟨after, rfl⟩ := hp.records
  have hrow : s.row = c.row := by
    rw [hp.state]
    rfl
  rw [hrow]
  exact hrows c (by simp)

/-- The rows of a pattern that is read and laid out, and those of its states: their braces are
balanced, no fragment is empty, and all but the braces are without braces and commas. -/
theorem Compilation.formed_rows {texts : List String} {b : Block} {rs : List Record}
    (h : Pattern.ofSources texts = .ok b) (hr : b.records = .ok rs) :
    (∀ c, .content c ∈ rs → Row.Formed c.row) ∧
    ∃ ss, states b = .ok ss ∧ ∀ s ∈ ss, Row.Formed s.row := by
  have hrows : ∀ c, .content c ∈ rs → Row.Formed c.row := fun c hc => b.formed_records h hr hc
  exact ⟨hrows, exists_states_rows h hr hrows⟩

/-- The row `k m g p(*)`, where `m` is `{p(2cm) {}}(2)` and `g` is a group. -/
def Block.cutBraces : Block :=
  let stitch (p : Position) (s : String) (args : List Expr) : Expr := .stitch p ⟨p, s⟩ args
  let size (p : Position) (a : Amount) (m : Measure) : Expr := .size ⟨p, a, m, false⟩
  ⟨[.define ⟨⟨1, 1⟩, "g"⟩ (.group ⟨1, 5⟩ ⟨3, 1⟩ [] [.row [stitch ⟨2, 1⟩ "yo" []] [] .none]) .none,
    .define ⟨⟨4, 1⟩, "m"⟩ (.row [stitch ⟨4, 6⟩ "p" [size ⟨4, 8⟩ (.whole 2) .centimetres],
      .row [] []] [size ⟨4, 17⟩ (.whole 2) .count]) .none,
    .row [stitch ⟨5, 1⟩ "k" [], stitch ⟨5, 3⟩ "m" [], stitch ⟨5, 5⟩ "g" [],
      stitch ⟨5, 7⟩ "p" [size ⟨5, 9⟩ .unstated .toEnd]] [] .none], ⟨1, 1⟩, ⟨6, 0⟩, .none⟩

/-- Its records: the group cuts the row behind the braces of `m`. -/
def Block.cutBracesRecords : List Record :=
  let row (fs : List String) : List Record := [.startRow [] [], .content ⟨[], [], fs⟩, .endRow]
  .startBlock [] :: (row ["k", "\x7b", "p 2cm", "\x7b", "\x7d", "\x7d 2"] ++
    .startGroup [] [] :: (row ["yo"] ++ .endGroup :: (row ["p to end of row"] ++ [.endBlock])))

theorem Compilation.formed_rows_cutBraces :
    Pattern.ofSources ["g = \x7b\nyo\n\x7d\nm = \x7bp(2cm) \x7b\x7d\x7d(2)\nk m g p(*)\n"] =
      .ok Block.cutBraces ∧
    Block.cutBraces.records = .ok Block.cutBracesRecords ∧
    (∀ c, .content c ∈ Block.cutBracesRecords → Row.Formed c.row) ∧
    ∃ ss, states Block.cutBraces = .ok ss ∧ ∀ s ∈ ss, Row.Formed s.row := by
  have h : Pattern.ofSources
      ["g = \x7b\nyo\n\x7d\nm = \x7bp(2cm) \x7b\x7d\x7d(2)\nk m g p(*)\n"] =
        .ok Block.cutBraces := rfl
  have hr : Block.cutBraces.records = .ok Block.cutBracesRecords := rfl
  exact ⟨h, hr, formed_rows h hr⟩

end KnittingPattern
