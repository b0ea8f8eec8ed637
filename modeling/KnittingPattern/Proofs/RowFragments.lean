import KnittingPattern.Proofs.StitchSequence

/-! # The fragments of rows

In a pattern of the grammar every fragment of a row is an opening brace, a closing one with the
arguments of a row within the row behind it, or a stitch that has no definition.  What holds of all
of these holds of every fragment that is laid out.  Main theorem: `Block.fragments_records`. -/

namespace KnittingPattern

namespace Layout

/-- What holds of all fragments that names and arguments of the grammar are written as. -/
structure Writes (names : Names) (Q : String → Prop) : Prop where
  opening : Q Fragment.opening
  closing : ∀ args : List Expr, args.all (Expr.isArgument true) →
    Q (Fragment.closing (Brackets.phrase names args))
  stitch : ∀ (name : Identifier) (args : List Expr), isWord name.name →
    args.all (Expr.isArgument true) → Q (stitchFragment names name args)

/-- It holds of all fragments of some pieces. -/
def Shows (Q : String → Prop) (ps : List Piece) : Prop := ∀ f ∈ ps.flatMap Piece.fragments, Q f

section

variable {names : Names} {Q : String → Prop} {ps qs : List Piece}

theorem Shows.append (hp : Shows Q ps) (hq : Shows Q qs) : Shows Q (ps ++ qs) := by
  rw [Shows, List.flatMap_append]
  exact List.forall_mem_append.mpr ⟨hp, hq⟩

theorem Writes.braced (hw : Writes names Q) (hp : Shows Q ps) {args : List Expr}
    (ha : args.all (Expr.isArgument true)) : Shows Q (braced names args ps) := by
  have hopening : Shows Q [.fragment Fragment.opening] := by
    simpa [Shows, Piece.fragments] using hw.opening
  have hclosing : Shows Q [.fragment (Fragment.closing (Brackets.phrase names args))] := by
    simpa [Shows, Piece.fragments] using hw.closing args ha
  exact hopening.append (hp.append hclosing)

end

/-- At a place, the definitions in use show such fragments only. -/
def Place.Shows (Q : String → Prop) (p : Place) : Prop :=
  ∀ inline id d ps, d.isDefinition true → p.expand inline id d = .ok ps → Layout.Shows Q ps

section

variable {p : Place} {Q : String → Prop}

mutual

theorem element_shows (hp : p.Shows Q) (hn : p.names.InGrammar) (hw : Writes p.names Q)
    {inline : Bool} {e : Expr} (he : e.isElement true) {ps : List Piece}
    (h : element p inline e = .ok ps) : Shows Q ps := by
  cases e with
  | stitch position name args =>
    simp only [Expr.isElement, Bool.and_eq_true] at he
    simp only [element] at h
    split at h
    · rename_i d hd
      obtain ⟨qs, hqs, h⟩ := exists_of_bind_ok h
      cases h
      have hshown : Shows Q qs := hp _ _ _ _ (hn.isDefinition hd) hqs
      exact hshown
    · cases h
      simpa [Shows, Piece.fragments] using hw.stitch name args he.1 he.2
  | row es args =>
    simp only [Expr.isElement, Bool.and_eq_true] at he
    obtain ⟨qs, hqs, h⟩ := exists_of_bind_ok h
    cases h
    exact hw.braced (elements_shows hp hn hw he.1 hqs) he.2
  | ident id => cases he
  | size s => cases he
  | group lbrace rbrace args lines => cases he

theorem elements_shows (hp : p.Shows Q) (hn : p.names.InGrammar) (hw : Writes p.names Q)
    {inline : Bool} {es : List Expr} (he : Expr.areElements true es) {ps : List Piece}
    (h : elements p inline es = .ok ps) : Shows Q ps := by
  cases es with
  | nil =>
    cases h
    simp [Shows]
  | cons e es =>
    simp only [Expr.areElements, Bool.and_eq_true] at he
    obtain ⟨qs, hqs, h⟩ := exists_of_bind_ok h
    obtain ⟨rs, hrs, h⟩ := exists_of_bind_ok h
    cases h
    exact (element_shows hp hn hw he.1 hqs).append (elements_shows hp hn hw he.2 hrs)

end

mutual

theorem statement_shows (hp : p.Shows Q) (hn : p.names.InGrammar) (hw : Writes p.names Q)
    {s : Stmt} (hs : s.isLine true) {rs : List Record} (h : statement p s = .ok rs) :
    ∀ f ∈ rs.flatMap Record.fragments, Q f := by
  cases s with
  | synonym lhs rhs desc =>
    cases h
    simp
  | define lhs rhs desc =>
    cases h
    simp
  | row es args desc =>
    simp only [Stmt.isLine, Bool.and_eq_true] at hs
    simp only [statement] at h
    split at h
    · rename_i id es' args' hr
      obtain ⟨ps, hps, h⟩ := exists_of_bind_ok h
      cases h
      obtain ⟨-, -, hd⟩ := exists_of_loneRow? hr
      rw [fragments_statementRecords]
      exact hp _ _ _ _ (hn.isDefinition_row hd) hps
    · obtain ⟨ps, hps, h⟩ := exists_of_bind_ok h
      cases h
      rw [fragments_statementRecords]
      exact elements_shows hp hn hw hs.1 hps
  | group lbrace rbrace args lines desc =>
    simp only [Stmt.isLine, Bool.and_eq_true] at hs
    obtain ⟨qs, hqs, h⟩ := exists_of_bind_ok h
    cases h
    rw [fragments_groupRecords]
    exact statements_shows hp hn hw hs.1 hqs
  | block ss start stop desc => cases hs

theorem statements_shows (hp : p.Shows Q) (hn : p.names.InGrammar) (hw : Writes p.names Q)
    {ss : List Stmt} (hs : Stmt.areLines true ss) {rs : List Record}
    (h : statements p ss = .ok rs) : ∀ f ∈ rs.flatMap Record.fragments, Q f := by
  cases ss with
  | nil =>
    cases h
    simp
  | cons s ss =>
    simp only [Stmt.areLines, Bool.and_eq_true] at hs
    obtain ⟨qs, hqs, h⟩ := exists_of_bind_ok h
    obtain ⟨ts, hts, h⟩ := exists_of_bind_ok h
    cases h
    rw [List.flatMap_append]
    exact List.forall_mem_append.mpr
      ⟨statement_shows hp hn hw hs.1 hqs, statements_shows hp hn hw hs.2 hts⟩

end

theorem definitionPieces_shows (hp : p.Shows Q) (hn : p.names.InGrammar) (hw : Writes p.names Q)
    {inline : Bool} {d : Expr} (hd : d.isDefinition true) {ps : List Piece}
    (h : definitionPieces p inline d = .ok ps) : Shows Q ps := by
  cases d with
  | row es args =>
    simp only [Expr.isDefinition, Bool.and_eq_true] at hd
    cases args with
    | nil => exact elements_shows hp hn hw hd.1.2 h
    | cons arg args =>
      obtain ⟨qs, hqs, h⟩ := exists_of_bind_ok h
      cases h
      exact hw.braced (elements_shows hp hn hw hd.1.2 hqs) hd.2
  | group lbrace rbrace args lines =>
    simp only [Expr.isDefinition, Bool.and_eq_true] at hd
    simp only [definitionPieces, element] at h
    split at h
    · cases h
    · obtain ⟨rs, hrs, h⟩ := exists_of_bind_ok h
      cases h
      simpa [Shows, Piece.fragments, fragments_groupRecords] using
        statements_shows hp hn hw hd.1 hrs
  | ident id => cases hd
  | size s => cases hd
  | stitch position name args => cases hd

end

/-- However deep definitions are in use within each other, they show such fragments only. -/
theorem expand_shows {names : Names} {Q : String → Prop} (hn : names.InGrammar)
    (hw : Writes names Q) (unused : Nat) (within : List String) :
    Place.Shows Q ⟨names, within, expand names unused within⟩ :=
  expand_induction (Q := fun _ => Shows Q)
    (fun w f hf _ _ _ hd h => @definitionPieces_shows ⟨names, w, f⟩ Q hf hn hw _ _ hd _ h)
    unused within

end Layout

/-- The fragments of a pattern that is read have what all fragments have that its names and
arguments are written as. -/
theorem Block.fragments_records {texts : List String} {b : Block} {rs : List Record}
    (h : Pattern.ofSources texts = .ok b) (hr : b.records = .ok rs) {Q : String → Prop}
    (hw : Layout.Writes (Names.ofBlock b) Q) {c : Content} (hc : .content c ∈ rs) :
    ∀ f ∈ c.row, Q f := by
  have hb := Pattern.areLines_of_ofSources h
  have hn := Names.inGrammar_ofBlock hb
  obtain ⟨ss, hss, hr⟩ := exists_of_bind_ok (f := fun ss => .ok (Layout.blockRecords b.desc ss)) hr
  cases hr
  have hs := Layout.statements_shows (Layout.expand_shows hn hw _ []) hn hw hb hss
  refine fun f hf => hs f (List.mem_flatMap.mpr ⟨.content c, ?_, hf⟩)
  simpa [Layout.blockRecords] using hc

end KnittingPattern
