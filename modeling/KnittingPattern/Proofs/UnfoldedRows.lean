import KnittingPattern.Proofs.DefinitionOrder
import KnittingPattern.Proofs.NamedStatements
import KnittingPattern.Proofs.ReaderGrammar

/-! # Definitions unfolded where they are used

A name that stands for a row without arguments can be replaced by the elements of that row, in any
rows, and the records are the same.  The exception is a row statement that is nothing but the name:
its elements may be a name that then stands for the whole statement.  Main theorem:
`Block.records_unfolded`. -/

namespace KnittingPattern

/-- In a row some uses of a name, without arguments, are replaced by `body`.  If `here` is false only
rows within the row are changed. -/
inductive Expr.Unfolded (name : String) (body : List Expr) : Bool → List Expr → List Expr → Prop
  | nil {here : Bool} : Unfolded name body here [] []
  | use {position place : Position} {es es' : List Expr} (h : Unfolded name body true es es') :
    Unfolded name body true (.stitch position ⟨place, name⟩ [] :: es) (body ++ es')
  | stitch {here : Bool} {position : Position} {id : Identifier} {args es es' : List Expr}
    (h : Unfolded name body here es es') :
    Unfolded name body here (.stitch position id args :: es) (.stitch position id args :: es')
  | row {here : Bool} {inner inner' args es es' : List Expr}
    (hinner : Unfolded name body true inner inner') (h : Unfolded name body here es es') :
    Unfolded name body here (.row inner args :: es) (.row inner' args :: es')

/-- In statements some uses of a name are replaced by `body`: in the rows that are defined, in row
statements of more than one element, and in rows within rows. -/
inductive Stmt.Unfolded (name : String) (body : List Expr) : List Stmt → List Stmt → Prop
  | nil : Unfolded name body [] []
  | synonym {lhs rhs : Identifier} {desc : Description} {ss ss' : List Stmt}
    (h : Unfolded name body ss ss') :
    Unfolded name body (.synonym lhs rhs desc :: ss) (.synonym lhs rhs desc :: ss')
  | defineRow {lhs : Identifier} {es es' args : List Expr} {desc : Description} {ss ss' : List Stmt}
    (hes : Expr.Unfolded name body true es es') (h : Unfolded name body ss ss') :
    Unfolded name body (.define lhs (.row es args) desc :: ss)
      (.define lhs (.row es' args) desc :: ss')
  | defineGroup {lhs : Identifier} {lbrace rbrace : Position} {args : List Expr}
    {lines lines' : List Stmt} {desc : Description} {ss ss' : List Stmt}
    (hlines : Unfolded name body lines lines') (h : Unfolded name body ss ss') :
    Unfolded name body (.define lhs (.group lbrace rbrace args lines) desc :: ss)
      (.define lhs (.group lbrace rbrace args lines') desc :: ss')
  | row {es es' args : List Expr} {desc : Description} {ss ss' : List Stmt}
    (hes : Expr.Unfolded name body (2 ≤ es.length) es es') (h : Unfolded name body ss ss') :
    Unfolded name body (.row es args desc :: ss) (.row es' args desc :: ss')
  | group {lbrace rbrace : Position} {args : List Expr} {lines lines' : List Stmt}
    {desc : Description} {ss ss' : List Stmt} (hlines : Unfolded name body lines lines')
    (h : Unfolded name body ss ss') :
    Unfolded name body (.group lbrace rbrace args lines desc :: ss)
      (.group lbrace rbrace args lines' desc :: ss')

/-- A definition and one in which some uses of a name are replaced by `body`. -/
inductive Expr.DefinesUnfolded (name : String) (body : List Expr) : Expr → Expr → Prop
  | row {es es' args : List Expr} (h : Expr.Unfolded name body true es es') :
    DefinesUnfolded name body (.row es args) (.row es' args)
  | group {lbrace rbrace : Position} {args : List Expr} {lines lines' : List Stmt}
    (h : Stmt.Unfolded name body lines lines') :
    DefinesUnfolded name body (.group lbrace rbrace args lines) (.group lbrace rbrace args lines')

variable {name : String} {body : List Expr}

namespace Expr.Unfolded

/-- Uses need not be replaced. -/
theorem refl {here : Bool} : ∀ {es : List Expr}, Expr.areElements true es →
    Expr.Unfolded name body here es es
  | [], _ => .nil
  | e :: es, h => by
    simp only [Expr.areElements, Bool.and_eq_true] at h
    obtain ⟨he, hes⟩ := h
    cases e with
    | stitch position id args => exact .stitch (refl hes)
    | row inner args =>
      simp only [Expr.isElement, Bool.and_eq_true] at he
      exact .row (refl he.1) (refl hes)
    | ident id => cases he
    | size s => cases he
    | group lbrace rbrace args lines => cases he

theorem length_le (hbody : body ≠ []) {here : Bool} {es es' : List Expr}
    (h : Expr.Unfolded name body here es es') : es.length ≤ es'.length := by
  have hpos : 0 < body.length := List.length_pos_iff.mpr hbody
  induction h with
  | nil => exact Nat.le_refl _
  | use h ih =>
    rw [List.length_cons, List.length_append]
    omega
  | stitch h ih => exact Nat.succ_le_succ ih
  | row hinner h ihinner ih => exact Nat.succ_le_succ ih

/-- A row statement is still just a name, or still not. -/
theorem loneName? (hbody : body ≠ []) {es es' : List Expr}
    (h : Expr.Unfolded name body (2 ≤ es.length) es es') (args : List Expr) :
    Layout.loneName? es' args = Layout.loneName? es args := by
  have hmany {es : List Expr} (hes : 2 ≤ es.length) : Layout.loneName? es args = none := by
    rcases es with _ | ⟨e, _ | ⟨f, es⟩⟩
    · simp at hes
    · simp at hes
    · simp [Layout.loneName?]
  by_cases hes : 2 ≤ es.length
  · rw [hmany hes, hmany (Nat.le_trans hes (h.length_le hbody))]
  · rw [decide_eq_false hes] at h
    rcases es with _ | ⟨e, _ | ⟨f, es⟩⟩
    · cases h
      rfl
    · cases h with
      | stitch h =>
        cases h
        rfl
      | row hinner h =>
        cases h
        cases args <;> rfl
    · exact absurd (by simp) hes

end Expr.Unfolded

namespace Names

theorem ofExprs_append (es fs : List Expr) :
    ofExprs (es ++ fs) = (ofExprs es).append (ofExprs fs) := by
  induction es with
  | nil => rfl
  | cons e es ih => simp [ofExprs, ih, append]

/-- Rows of the grammar give no names. -/
theorem ofExprs_of_areElements : ∀ {es : List Expr}, Expr.areElements true es → ofExprs es = none
  | [], _ => rfl
  | e :: es, h => by
    simp only [Expr.areElements, Bool.and_eq_true] at h
    obtain ⟨he, hes⟩ := h
    rw [ofExprs, ofExprs_of_areElements hes]
    cases e with
    | stitch position id args => rfl
    | row inner args =>
      simp only [Expr.isElement, Bool.and_eq_true] at he
      rw [ofExpr, ofExprs_of_areElements he.1]
      rfl
    | ident id => cases he
    | size s => cases he
    | group lbrace rbrace args lines => cases he

/-- Nor do they after uses of a name are replaced. -/
theorem ofExprs_unfolded (hbody : ofExprs body = none) {here : Bool} {es es' : List Expr}
    (h : Expr.Unfolded name body here es es') : ofExprs es = none ∧ ofExprs es' = none := by
  induction h with
  | nil => exact ⟨rfl, rfl⟩
  | use h ih => exact ⟨by rw [ofExprs, ih.1]; rfl, by rw [ofExprs_append, hbody, ih.2]; rfl⟩
  | stitch h ih => exact ⟨by rw [ofExprs, ih.1]; rfl, by rw [ofExprs, ih.2]; rfl⟩
  | row hinner h ihinner ih =>
    exact ⟨by rw [ofExprs, ofExpr, ihinner.1, ih.1]; rfl, by rw [ofExprs, ofExpr, ihinner.2, ih.2]; rfl⟩

/-- Names before and after uses of a name are replaced. -/
structure Unfolded (name : String) (body : List Expr) (n n' : Names) : Prop where
  synonyms : n.synonyms = n'.synonyms
  definitions : ∀ y,
    Option.Rel (Expr.DefinesUnfolded name body) (n.definition? y) (n'.definition? y)

namespace Unfolded

theorem none : Unfolded name body none none := ⟨rfl, fun _ => .none⟩

theorem append {a a' b b' : Names} (ha : Unfolded name body a a') (hb : Unfolded name body b b') :
    Unfolded name body (a.append b) (a'.append b') where
  synonyms := by simp only [Names.append, ha.synonyms, hb.synonyms]
  definitions y := by
    rw [definition?_append, definition?_append]
    exact rel_or (ha.definitions y) (hb.definitions y)

theorem singleton {lhs : String} {d d' : Expr} (h : Expr.DefinesUnfolded name body d d') :
    Unfolded name body ⟨[], [(lhs, d)]⟩ ⟨[], [(lhs, d')]⟩ where
  synonyms := rfl
  definitions y := by
    by_cases hy : lhs = y
    · simpa [definition?, last?, hy] using h
    · simp [definition?, last?, hy]

theorem exists_definition {n n' : Names} (h : Unfolded name body n n') {y : String} {d : Expr}
    (hd : n.definition? y = some d) :
    ∃ d', n'.definition? y = some d' ∧ Expr.DefinesUnfolded name body d d' := by
  have hr := h.definitions y
  rw [hd] at hr
  generalize n'.definition? y = o at hr ⊢
  cases hr with
  | some hdd => exact ⟨_, rfl, hdd⟩

theorem definition?_eq_none {n n' : Names} (h : Unfolded name body n n') {y : String}
    (hd : n.definition? y = Option.none) : n'.definition? y = Option.none := by
  have hr := h.definitions y
  rw [hd] at hr
  generalize n'.definition? y = o at hr ⊢
  cases hr
  rfl

/-- A name stands for a row with arguments before and after, or does not. -/
theorem loneRow?_eq_none {n n' : Names} (h : Unfolded name body n n') {es es' args : List Expr}
    (hl : Layout.loneName? es' args = Layout.loneName? es args)
    (hr : Layout.loneRow? n es args = Option.none) : Layout.loneRow? n' es' args = Option.none := by
  rw [Layout.loneRow?, hl]
  rw [Layout.loneRow?] at hr
  cases hid : Layout.loneName? es args with
  | none => rfl
  | some id =>
    cases hd : n.definition? id.name with
    | none => simp [h.definition?_eq_none hd]
    | some d =>
      obtain ⟨d', hd', hdd⟩ := h.exists_definition hd
      cases hdd with
      | @row ds ds' as hds =>
        cases as with
        | nil => simp [hd']
        | cons a as => simp [hid, hd] at hr
      | group hlines => simp [hd']

end Unfolded

theorem unfolded_ofStmts (hbody : ofExprs body = none) {ss ss' : List Stmt}
    (h : Stmt.Unfolded name body ss ss') : Unfolded name body (ofStmts ss) (ofStmts ss') := by
  have hnone {es es' : List Expr} {here : Bool} (hes : Expr.Unfolded name body here es es') :
      Unfolded name body (ofExprs es) (ofExprs es') := by
    rw [(ofExprs_unfolded hbody hes).1, (ofExprs_unfolded hbody hes).2]
    exact .none
  induction h with
  | nil => exact .none
  | synonym h ih =>
    have hs {lhs : String} {rhs : Identifier} :
        Unfolded name body ⟨[(lhs, rhs)], []⟩ ⟨[(lhs, rhs)], []⟩ := ⟨rfl, fun _ => .none⟩
    exact hs.append ih
  | defineRow hes h ih => exact ((Unfolded.singleton (.row hes)).append (hnone hes)).append ih
  | defineGroup hlines h ihlines ih =>
    exact ((Unfolded.singleton (.group hlines)).append ihlines).append ih
  | row hes h ih => exact (hnone hes).append ih
  | group hlines h ihlines ih => exact ihlines.append ih

end Names

namespace Piece

/-- No arguments add nothing to a row. -/
def adds : Piece → Bool
  | args [] => false
  | _ => true

/-- Pieces that are the same but for those that add nothing. -/
def Same (ps qs : List Piece) : Prop := ps.filter adds = qs.filter adds

theorem Same.append {ps ps' qs qs' : List Piece} (hp : Same ps ps') (hq : Same qs qs') :
    Same (ps ++ qs) (ps' ++ qs') := by
  rw [Same, List.filter_append, List.filter_append, hp, hq]

theorem Same.cons (p : Piece) {ps ps' : List Piece} (h : Same ps ps') :
    Same (p :: ps) (p :: ps') := by
  have hp : Same [p] [p] := rfl
  exact hp.append h

theorem assemble_filter_adds (desc args : List String) (c : Content) (ps : List Piece) :
    assemble desc args c (ps.filter adds) = assemble desc args c ps := by
  induction ps generalizing c with
  | nil => rfl
  | cons p ps ih =>
    match p with
    | .args [] =>
      rw [List.filter_cons_of_neg (by simp [adds]), assemble, ih]
      simp [Content.addArgs]
    | .args (t :: ts) => rw [List.filter_cons_of_pos rfl, assemble, assemble, ih]
    | .fragment f => rw [List.filter_cons_of_pos rfl, assemble, assemble, ih]
    | .records rs => rw [List.filter_cons_of_pos rfl, assemble, assemble, ih]

/-- They make the same rows. -/
theorem Same.assemble {ps qs : List Piece} (h : Same ps qs) (desc args : List String) (c : Content) :
    assemble desc args c ps = Piece.assemble desc args c qs := by
  rw [← assemble_filter_adds, h, assemble_filter_adds]

end Piece

namespace Layout

open Piece (Same)

theorem statementRecords_same {ps ps' : List Piece} (h : Same ps ps') (desc : Description)
    (args : List String) : statementRecords desc args ps' = statementRecords desc args ps :=
  ((h.cons _).assemble _ _ _).symm

theorem elements_append {p : Place} {inline : Bool} {es fs : List Expr} {ps qs : List Piece}
    (h : elements p inline es = .ok ps) (hf : elements p inline fs = .ok qs) :
    elements p inline (es ++ fs) = .ok (ps ++ qs) := by
  induction es generalizing ps with
  | nil =>
    cases h
    exact hf
  | cons e es ih =>
    obtain ⟨rs, ts, hrs, hts, rfl⟩ := exists_of_elements_cons h
    rw [List.append_assoc]
    exact elements_cons hrs (ih hts)

theorem braced_same {ps ps' : List Piece} (h : Same ps ps') (names : Names) (args : List Expr) :
    Same (braced names args ps) (braced names args ps') :=
  (h.append rfl).cons _

/-- A place of a pattern, and one of the pattern in which uses of a name are replaced.  What is laid
out at the one is laid out at the other, and `body` in place of a use. -/
structure Place.Unfolds (name : String) (body : List Expr) (p p' : Place) : Prop where
  names : p.names.Unfolded name body p'.names
  definition : p.names.definition? name = some (.row body [])
  nonempty : body ≠ []
  expand : ∀ inline id d d' ps, (p.names.definition? id.name).isSome →
    Expr.DefinesUnfolded name body d d' → p.expand inline id d = .ok ps →
    ∃ ps', p'.expand inline id d' = .ok ps' ∧ Same ps ps'
  use : ∀ inline id ps, p.expand inline id (.row body []) = .ok ps →
    ∃ ps', elements p' inline body = .ok ps' ∧ Same ps ps'

section

variable {p p' : Place}

/-- A stitch that is not replaced. -/
theorem stitch_unfolds (h : p.Unfolds name body p') {inline : Bool} {position : Position}
    {id : Identifier} {args : List Expr} {ps : List Piece}
    (hs : element p inline (.stitch position id args) = .ok ps) :
    ∃ ps', element p' inline (.stitch position id args) = .ok ps' ∧ Same ps ps' := by
  simp only [element] at hs ⊢
  cases hd : p.names.definition? id.name with
  | none =>
    simp only [hd] at hs
    cases hs
    simp only [h.names.definition?_eq_none hd, stitchFragment_of_synonyms h.names.synonyms]
    exact ⟨_, rfl, rfl⟩
  | some d =>
    simp only [hd] at hs
    obtain ⟨qs, hqs, hs⟩ := exists_of_bind_ok hs
    cases hs
    obtain ⟨d', hd', hdd⟩ := h.names.exists_definition hd
    obtain ⟨qs', hqs', hsame⟩ := h.expand inline id d d' qs (by simp [hd]) hdd hqs
    simp only [hd', hqs', texts_of_synonyms h.names.synonyms]
    exact ⟨_, rfl, hsame.cons _⟩

theorem elements_unfolds (h : p.Unfolds name body p') {here : Bool} {es es' : List Expr}
    (hes : Expr.Unfolded name body here es es') {inline : Bool} {ps : List Piece}
    (hps : elements p inline es = .ok ps) :
    ∃ ps', elements p' inline es' = .ok ps' ∧ Same ps ps' := by
  induction hes generalizing inline ps with
  | nil => exact ⟨ps, hps, rfl⟩
  | use hes ih =>
    obtain ⟨qs, rs, hqs, hrs, rfl⟩ := exists_of_elements_cons hps
    simp only [element, h.definition] at hqs
    obtain ⟨us, hus, hqs⟩ := exists_of_bind_ok hqs
    cases hqs
    obtain ⟨us', hus', hu⟩ := h.use inline _ us hus
    obtain ⟨rs', hrs', hr⟩ := ih hrs
    exact ⟨_, elements_append hus' hrs', hu.append hr⟩
  | stitch hes ih =>
    obtain ⟨qs, rs, hqs, hrs, rfl⟩ := exists_of_elements_cons hps
    obtain ⟨qs', hqs', hq⟩ := stitch_unfolds h hqs
    obtain ⟨rs', hrs', hr⟩ := ih hrs
    exact ⟨_, elements_cons hqs' hrs', hq.append hr⟩
  | @row _ _ inner' args _ _ hinner hes ihinner ih =>
    obtain ⟨qs, rs, hqs, hrs, rfl⟩ := exists_of_elements_cons hps
    obtain ⟨us, hus, hqs⟩ := exists_of_bind_ok hqs
    cases hqs
    obtain ⟨us', hus', hu⟩ := ihinner hus
    obtain ⟨rs', hrs', hr⟩ := ih hrs
    have hrow : element p' inline (.row inner' args) = .ok (braced p.names args us') := by
      simp only [element, hus', ← braced_of_synonyms h.names.synonyms]
      rfl
    exact ⟨_, elements_cons hrow hrs', (braced_same hu _ _).append hr⟩

theorem rowStatement_unfolds (h : p.Unfolds name body p') {es es' : List Expr}
    (hes : Expr.Unfolded name body (2 ≤ es.length) es es') {args : List Expr} {desc : Description}
    {rs : List Record} (hrs : statement p (.row es args desc) = .ok rs) :
    statement p' (.row es' args desc) = .ok rs := by
  have hl := hes.loneName? h.nonempty args
  simp only [statement] at hrs
  split at hrs
  · rename_i id ds as hr
    obtain ⟨ps, hps, hrs⟩ := exists_of_bind_ok hrs
    cases hrs
    obtain ⟨-, -, hd⟩ := exists_of_loneRow? hr
    obtain ⟨arg, rest, rfl⟩ := exists_cons_of_loneRow? hr
    obtain ⟨d', hd', hdd⟩ := h.names.exists_definition hd
    cases hdd with
    | @row _ ds' _ hds =>
      have hr' : loneRow? p'.names es' args = some (id, ds', arg :: rest) := by
        simp [loneRow?, hl, loneName?_of_loneRow? hr, hd']
      obtain ⟨ps', hps', hsame⟩ := h.expand false id _ _ ps (by simp [hd]) (.row hds) hps
      simp only [statement, hr', hps', ← texts_of_synonyms h.names.synonyms]
      exact congrArg Except.ok (statementRecords_same hsame _ _)
  · rename_i hr
    obtain ⟨ps, hps, hrs⟩ := exists_of_bind_ok hrs
    cases hrs
    have hr' : loneRow? p'.names es' args = none := h.names.loneRow?_eq_none hl hr
    obtain ⟨ps', hps', hsame⟩ := elements_unfolds h hes hps
    simp only [statement, hr', hps', ← texts_of_synonyms h.names.synonyms]
    exact congrArg Except.ok (statementRecords_same hsame _ _)

theorem statements_unfolds (h : p.Unfolds name body p') {ss ss' : List Stmt}
    (hss : Stmt.Unfolded name body ss ss') {rs : List Record} (hrs : statements p ss = .ok rs) :
    statements p' ss' = .ok rs := by
  induction hss generalizing rs with
  | nil => exact hrs
  | synonym hss ih =>
    obtain ⟨qs, us, hqs, hus, rfl⟩ := exists_of_statements_cons hrs
    exact statements_cons hqs (ih hus)
  | defineRow hes hss ih =>
    obtain ⟨qs, us, hqs, hus, rfl⟩ := exists_of_statements_cons hrs
    exact statements_cons hqs (ih hus)
  | defineGroup hlines hss ihlines ih =>
    obtain ⟨qs, us, hqs, hus, rfl⟩ := exists_of_statements_cons hrs
    exact statements_cons hqs (ih hus)
  | row hes hss ih =>
    obtain ⟨qs, us, hqs, hus, rfl⟩ := exists_of_statements_cons hrs
    exact statements_cons (rowStatement_unfolds h hes hqs) (ih hus)
  | group hlines hss ihlines ih =>
    obtain ⟨qs, us, hqs, hus, rfl⟩ := exists_of_statements_cons hrs
    obtain ⟨ts, hts, hqs⟩ := exists_of_bind_ok hqs
    cases hqs
    refine statements_cons ?_ (ih hus)
    simp only [statement, ihlines hts, ← texts_of_synonyms h.names.synonyms]
    rfl

theorem definitionPieces_unfolds (h : p.Unfolds name body p') {d d' : Expr}
    (hd : Expr.DefinesUnfolded name body d d') {inline : Bool} {ps : List Piece}
    (hps : definitionPieces p inline d = .ok ps) :
    ∃ ps', definitionPieces p' inline d' = .ok ps' ∧ Same ps ps' := by
  cases hd with
  | @row es es' args hes =>
    cases args with
    | nil => exact elements_unfolds h hes hps
    | cons arg args =>
      obtain ⟨qs, hqs, hps⟩ := exists_of_bind_ok hps
      cases hps
      obtain ⟨qs', hqs', hsame⟩ := elements_unfolds h hes hqs
      refine ⟨braced p.names (arg :: args) qs', ?_, braced_same hsame _ _⟩
      simp only [definitionPieces, element, hqs', ← braced_of_synonyms h.names.synonyms]
      rfl
  | group hlines =>
    simp only [definitionPieces, element] at hps ⊢
    split at hps
    · cases hps
    · rename_i hi
      obtain ⟨rs, hrs, hps⟩ := exists_of_bind_ok hps
      cases hps
      simp only [if_neg hi, statements_unfolds h hlines hrs, ← texts_of_synonyms h.names.synonyms]
      exact ⟨_, rfl, rfl⟩

end

/-- However deep definitions are in use within each other, what is laid out before is laid out after.
Fewer may be in use after, for a name whose use is replaced is not. -/
theorem expand_unfolds {n n' : Names} (hn : n.Unfolded name body n')
    (hd : n.definition? name = some (.row body [])) (hne : body ≠ [])
    (hbody : Expr.areElements true body) {u u' : Nat} {w w' : List String} (hu : InUse n' u' w')
    (hw : w' ⊆ w) :
    Place.Unfolds name body ⟨n, w, expand n u w⟩ ⟨n', w', expand n' u' w'⟩ := by
  induction u generalizing u' w w' with
  | zero =>
    refine ⟨hn, hd, hne, fun inline id d d' ps _ _ he => ?_, fun inline id ps he => ?_⟩
    · obtain ⟨-, k, hk, -⟩ := exists_of_expand_ok he
      cases hk
    · obtain ⟨-, k, hk, -⟩ := exists_of_expand_ok he
      cases hk
  | succ u ih =>
    refine ⟨hn, hd, hne, fun inline id d d' ps hsome hdd he => ?_, fun inline id ps he => ?_⟩
    · obtain ⟨hnot, k, hk, hps⟩ := exists_of_expand_ok he
      cases hk
      have hnot' : id.name ∉ w' := fun hm => hnot (hw hm)
      have hsome' : (n'.definition? id.name).isSome := by
        obtain ⟨e, he⟩ := Option.isSome_iff_exists.mp hsome
        obtain ⟨e', he', -⟩ := hn.exists_definition he
        simp [he']
      obtain ⟨v, rfl, hv⟩ := hu.exists_enter hsome' hnot'
      simp only [expand, if_neg hnot']
      exact definitionPieces_unfolds (ih hv (List.cons_subset_cons _ hw)) hdd hps
    · obtain ⟨-, k, hk, hps⟩ := exists_of_expand_ok he
      cases hk
      have hrefl : Expr.Unfolded name body true body body := .refl hbody
      exact elements_unfolds (ih hu (List.subset_cons_of_subset _ hw)) hrefl hps

end Layout

open Layout

/-- A name that stands for a row without arguments can be replaced by the elements of that row,
anywhere but where it is a whole row statement. -/
theorem Block.records_unfolded {texts : List String} {b : Block}
    (hb : Pattern.ofSources texts = .ok b)
    (hname : Stmt.lastDefinition? name b.statements = some (.row body [])) {ss : List Stmt}
    (h : Stmt.Unfolded name body b.statements ss) {rs : List Record} (hr : b.records = .ok rs) :
    ({ b with statements := ss } : Block).records = .ok rs := by
  have hd : (Names.ofBlock b).definition? name = some (.row body []) := by
    rw [← hname]
    exact Names.definition?_eq_last name b.statements
  have hgrammar := (Names.inGrammar_ofBlock (Pattern.areLines_of_ofSources hb)).isDefinition hd
  simp only [Expr.isDefinition, Bool.and_eq_true, Bool.not_eq_true', List.isEmpty_eq_false_iff]
    at hgrammar
  obtain ⟨⟨hne, hbody⟩, -⟩ := hgrammar
  have hn : (Names.ofBlock b).Unfolded name body (Names.ofStmts ss) :=
    Names.unfolded_ofStmts (Names.ofExprs_of_areElements hbody) h
  have hp : Place.Unfolds name body (outside (Names.ofBlock b)) (outside (Names.ofStmts ss)) :=
    expand_unfolds hn hd hne hbody (.none (Nat.le_refl _)) (List.Subset.refl _)
  obtain ⟨rs', hrs', rfl⟩ := exists_of_map_ok hr
  exact congrArg (Except.map (blockRecords b.desc)) (statements_unfolds hp h hrs')

/-- A stitch that is nothing but its name. -/
def Expr.bareStitch (line column : Nat) (name : String) : Expr :=
  .stitch ⟨line, column⟩ ⟨⟨line, column⟩, name⟩ []

/-- `r p` -/
def Expr.rib : List Expr := [bareStitch 5 5 "r", bareStitch 5 7 "p"]

/-- A group, a row with a count, and `rib` are defined as `g`, `r` and `a`; then elements stand in a
definition, in a row within a row, and in a row. -/
def Stmt.ribbedRows (inDefinition inBraces inRow : List Expr) : List Stmt :=
  let define (line : Nat) (name : String) (d : Expr) : Stmt := .define ⟨⟨line, 1⟩, name⟩ d .none
  [define 1 "g" (.group ⟨1, 5⟩ ⟨3, 1⟩ [] [.row [.bareStitch 2 1 "z"] [] .none]),
    define 4 "r" (.row [.bareStitch 4 6 "k"] [.count ⟨4, 9⟩ 2]),
    define 5 "a" (.row Expr.rib []),
    define 6 "m" (.row (inDefinition ++ [.bareStitch 6 7 "g"]) []),
    .row (.bareStitch 7 1 "m" :: .row inBraces [.count ⟨7, 7⟩ 3] :: inRow) [] .none]

def Block.namedRib : Block :=
  ⟨Stmt.ribbedRows [.bareStitch 6 5 "a"] [.bareStitch 7 4 "a"] [.bareStitch 7 10 "a"],
    ⟨1, 1⟩, ⟨8, 0⟩, .none⟩

/-- The group in `m` cuts the row, and `r` keeps its braces. -/
def Block.cutRibs : List Record :=
  [.startBlock [], .startRow [] [], .content ⟨[], [], ["\x7b", "k", "\x7d 2", "p"]⟩, .endRow,
    .startGroup [] [], .startRow [] [], .content ⟨[], [], ["z"]⟩, .endRow, .endGroup, .startRow [] [],
    .content ⟨[], [],
      ["\x7b", "\x7b", "k", "\x7d 2", "p", "\x7d 3", "\x7b", "k", "\x7d 2", "p"]⟩, .endRow, .endBlock]

theorem Block.records_unfolded_namedRib :
    Pattern.ofSources ["g = \x7b\nz\n\x7d\nr = \x7bk\x7d(2)\na = r p\nm = a g\nm \x7ba\x7d(3) a\n"] =
      .ok namedRib ∧
    Stmt.lastDefinition? "a" namedRib.statements = some (.row Expr.rib []) ∧
    Stmt.Unfolded "a" Expr.rib namedRib.statements (Stmt.ribbedRows Expr.rib Expr.rib Expr.rib) ∧
    namedRib.records = .ok cutRibs ∧
    { namedRib with statements := Stmt.ribbedRows Expr.rib Expr.rib Expr.rib }.records =
      .ok cutRibs := by
  have hparse : Pattern.ofSources
      ["g = \x7b\nz\n\x7d\nr = \x7bk\x7d(2)\na = r p\nm = a g\nm \x7ba\x7d(3) a\n"] = .ok namedRib := rfl
  have hr : namedRib.records = .ok cutRibs := rfl
  have hu : Stmt.Unfolded "a" Expr.rib namedRib.statements
      (Stmt.ribbedRows Expr.rib Expr.rib Expr.rib) := by
    refine .defineGroup ?_ (.defineRow ?_ (.defineRow ?_ (.defineRow ?_ (.row ?_ .nil))))
    · exact .row (.stitch .nil) .nil
    · exact .stitch .nil
    · exact .stitch (.stitch .nil)
    · exact .use (.stitch .nil)
    · exact .stitch (.row (.use .nil) (.use .nil))
  exact ⟨hparse, rfl, hu, hr, Block.records_unfolded hparse rfl hu hr⟩

end KnittingPattern
