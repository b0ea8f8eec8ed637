import KnittingPattern.Proofs.DefinitionNesting
import KnittingPattern.Proofs.NestedUnrolling
import KnittingPattern.Proofs.ReaderGrammar
import KnittingPattern.Proofs.RecordGrammar

/-! # The nesting of a layout

A pattern that is read has no blocks within it, so its records are properly nested behind the start
of the pattern's own block, and the states of the pattern are their recursive unrolling.  Main
theorem: `Block.exists_nested`. -/

namespace KnittingPattern

namespace Nested

/-- Nested records behind others. -/
def append : Nested → Nested → Nested
  | nil, y => y
  | content c rest, y => content c (rest.append y)
  | scope s desc args body rest, y => scope s desc args body (rest.append y)

theorem records_append (x y : Nested) : (x.append y).records = x.records ++ y.records := by
  induction x with
  | nil => rfl
  | content c rest ih => simp [append, records, ih]
  | scope s desc args body rest _ ih => simp [append, records, ih]

end Nested

namespace Record

/-- Records are properly nested. -/
def Nests (rs : List Record) : Prop := ∃ x : Nested, x.records = rs

namespace Nests

theorem nil : Nests [] := ⟨.nil, rfl⟩

theorem append {xs ys : List Record} : Nests xs → Nests ys → Nests (xs ++ ys)
  | ⟨x, hx⟩, ⟨y, hy⟩ => ⟨x.append y, by rw [Nested.records_append, hx, hy]⟩

theorem rowRecords (desc args : List String) (c : Content) :
    Nests (Piece.rowRecords desc args c) := by
  unfold Piece.rowRecords
  split
  · exact .nil
  · exact ⟨.scope .row desc args (.content c .nil) .nil, rfl⟩

theorem groupRecords (desc args : List String) {rs : List Record} :
    Nests rs → Nests (Layout.groupRecords desc args rs)
  | ⟨x, hx⟩ => ⟨.scope .group desc args x .nil, by rw [← hx]; rfl⟩

end Nests

end Record

open Record (Nests)

namespace Piece

/-- Records within a row are those of a group and properly nested. -/
def Nested : Piece → Prop
  | .records rs => ∃ args ts, rs = Layout.groupRecords [] args ts ∧ Nests ts
  | _ => True

theorem nests_assemble (desc args : List String) (c : Content) {ps : List Piece}
    (h : ∀ p ∈ ps, p.Nested) : Nests (assemble desc args c ps) := by
  induction ps generalizing c with
  | nil => exact .rowRecords desc args c
  | cons p ps ih =>
    obtain ⟨hp, hps⟩ := List.forall_mem_cons.mp h
    cases p with
    | fragment f => exact ih _ hps
    | args ts => exact ih _ hps
    | records rs =>
      obtain ⟨texts, ts, rfl, hts⟩ := hp
      have hrest := (hts.groupRecords [] texts).append (ih .empty hps)
      exact (Nests.rowRecords desc args c).append hrest

end Piece

namespace Layout

theorem nests_statementRecords (desc : Description) (args : List String) {ps : List Piece}
    (h : ∀ p ∈ ps, p.Nested) : Nests (statementRecords desc args ps) :=
  Piece.nests_assemble _ _ _ (List.forall_mem_cons.mpr ⟨trivial, h⟩)

theorem nested_braced {names : Names} {args : List Expr} {ps : List Piece}
    (h : ∀ q ∈ ps, q.Nested) : ∀ q ∈ braced names args ps, q.Nested := by
  simpa [braced, Piece.Nested, or_imp, forall_and] using h

/-- At a place, definitions of the grammar expand to nested pieces. -/
def Place.Nests (p : Place) : Prop :=
  ∀ inline id d ps, d.isDefinition true → p.expand inline id d = .ok ps → ∀ q ∈ ps, q.Nested

section

variable {p : Place}

mutual

/-- In the grammar no group is an element; groups come in as definitions only. -/
theorem element_nested (hp : p.Nests) (hn : p.names.InGrammar) {inline : Bool} {e : Expr}
    (he : e.isElement true) {ps : List Piece} (h : element p inline e = .ok ps) :
    ∀ q ∈ ps, q.Nested := by
  cases e with
  | stitch position name args =>
    simp only [element] at h
    split at h
    · rename_i d hd
      obtain ⟨qs, hqs, h⟩ := exists_of_bind_ok h
      cases h
      exact List.forall_mem_cons.mpr ⟨trivial, hp _ _ _ _ (hn.isDefinition hd) hqs⟩
    · cases h
      simp [Piece.Nested]
  | row es args =>
    simp only [Expr.isElement, Bool.and_eq_true] at he
    obtain ⟨qs, hqs, h⟩ := exists_of_bind_ok h
    cases h
    exact nested_braced (elements_nested hp hn he.1 hqs)
  | ident id => cases he
  | size s => cases he
  | group lbrace rbrace args lines => cases he

theorem elements_nested (hp : p.Nests) (hn : p.names.InGrammar) {inline : Bool} {es : List Expr}
    (he : Expr.areElements true es) {ps : List Piece} (h : elements p inline es = .ok ps) :
    ∀ q ∈ ps, q.Nested := by
  cases es with
  | nil =>
    cases h
    simp
  | cons e es =>
    simp only [Expr.areElements, Bool.and_eq_true] at he
    obtain ⟨qs, hqs, h⟩ := exists_of_bind_ok h
    obtain ⟨rs, hrs, h⟩ := exists_of_bind_ok h
    cases h
    exact List.forall_mem_append.mpr
      ⟨element_nested hp hn he.1 hqs, elements_nested hp hn he.2 hrs⟩

end

/-- The pieces of a definition whose row takes the whole statement. -/
theorem expand_row_nested (hp : p.Nests) (hn : p.names.InGrammar) {id : Identifier}
    {es args : List Expr} (hd : p.names.definition? id.name = some (.row es args)) {inline : Bool}
    {ps : List Piece} (h : p.expand inline id (.row es []) = .ok ps) : ∀ q ∈ ps, q.Nested :=
  hp _ _ _ _ (hn.isDefinition_row hd) h

mutual

theorem statement_nests (hp : p.Nests) (hn : p.names.InGrammar) {s : Stmt} (hs : s.isLine true)
    {rs : List Record} (h : statement p s = .ok rs) : Nests rs := by
  cases s with
  | synonym lhs rhs desc =>
    cases h
    exact .nil
  | define lhs rhs desc =>
    cases h
    exact .nil
  | row es args desc =>
    simp only [Stmt.isLine, Bool.and_eq_true] at hs
    simp only [statement] at h
    split at h
    · rename_i id es' args' hr
      obtain ⟨ps, hps, h⟩ := exists_of_bind_ok h
      cases h
      obtain ⟨-, -, hd⟩ := exists_of_loneRow? hr
      exact nests_statementRecords _ _ (expand_row_nested hp hn hd hps)
    · obtain ⟨ps, hps, h⟩ := exists_of_bind_ok h
      cases h
      exact nests_statementRecords _ _ (elements_nested hp hn hs.1 hps)
  | group lbrace rbrace args lines desc =>
    simp only [Stmt.isLine, Bool.and_eq_true] at hs
    obtain ⟨qs, hqs, h⟩ := exists_of_bind_ok h
    cases h
    exact (statements_nests hp hn hs.1 hqs).groupRecords _ _
  | block ss start stop desc => cases hs

theorem statements_nests (hp : p.Nests) (hn : p.names.InGrammar) {ss : List Stmt}
    (hs : Stmt.areLines true ss) {rs : List Record} (h : statements p ss = .ok rs) : Nests rs := by
  cases ss with
  | nil =>
    cases h
    exact .nil
  | cons s ss =>
    simp only [Stmt.areLines, Bool.and_eq_true] at hs
    obtain ⟨qs, hqs, h⟩ := exists_of_bind_ok h
    obtain ⟨ts, hts, h⟩ := exists_of_bind_ok h
    cases h
    exact (statement_nests hp hn hs.1 hqs).append (statements_nests hp hn hs.2 hts)

end

theorem definitionPieces_nested (hp : p.Nests) (hn : p.names.InGrammar) {inline : Bool} {d : Expr}
    (hd : d.isDefinition true) {ps : List Piece} (h : definitionPieces p inline d = .ok ps) :
    ∀ q ∈ ps, q.Nested := by
  cases d with
  | row es args =>
    simp only [Expr.isDefinition, Bool.and_eq_true] at hd
    cases args with
    | nil => exact elements_nested hp hn hd.1.2 h
    | cons arg args =>
      obtain ⟨qs, hqs, h⟩ := exists_of_bind_ok h
      cases h
      exact nested_braced (elements_nested hp hn hd.1.2 hqs)
  | group lbrace rbrace args lines =>
    simp only [Expr.isDefinition, Bool.and_eq_true] at hd
    simp only [definitionPieces, element] at h
    split at h
    · cases h
    · obtain ⟨rs, hrs, h⟩ := exists_of_bind_ok h
      cases h
      simpa [Piece.Nested] using ⟨_, _, rfl, statements_nests hp hn hd.1 hrs⟩
  | ident id => cases hd
  | size s => cases hd
  | stitch position name args => cases hd

end

/-- However deep definitions are in use within each other, their pieces are nested. -/
theorem expand_nests {names : Names} (hn : names.InGrammar) (unused : Nat) (within : List String) :
    Place.Nests ⟨names, within, expand names unused within⟩ :=
  expand_induction (fun w f hf _ _ _ hd h =>
    @definitionPieces_nested ⟨names, w, f⟩ hf hn _ _ hd _ h) unused within

end Layout

/-- A pattern that is read is nested when it is laid out. -/
theorem Block.exists_nested {texts : List String} {b : Block} {rs : List Record}
    (h : Pattern.ofSources texts = .ok b) (hr : b.records = .ok rs) :
    ∃ x : Nested, rs = .startBlock b.desc.lines :: (x.records ++ [.endBlock]) := by
  have hb := Pattern.areLines_of_ofSources h
  have hn := Names.inGrammar_ofBlock hb
  obtain ⟨ss, hss, hr⟩ := exists_of_bind_ok (f := fun ss => .ok (Layout.blockRecords b.desc ss)) hr
  cases hr
  obtain ⟨x, rfl⟩ := Layout.statements_nests (Layout.expand_nests hn _ []) hn hb hss
  exact ⟨x, rfl⟩

end KnittingPattern
