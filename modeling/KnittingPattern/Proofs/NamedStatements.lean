import KnittingPattern.Compilation
import KnittingPattern.Proofs.DefinitionNesting
import KnittingPattern.Proofs.NewNames
import KnittingPattern.Proofs.RowRepeats

/-! # Giving a name to a statement

A row or a group of a pattern can be defined under a name of its own and then be used by that name.
The records are the same.  The exception is a row that is itself just a name, for a row with a count:
by that name it is repeated, and by the name of the name it is a row between braces.  Main theorems:
`Block.records_named`, `Layout.Naming.nameOfName`. -/

namespace KnittingPattern

variable {name : String} {s : Stmt} {owner : Option String}

namespace Layout

/-- A place of a pattern, and one of the pattern in which the statement has its name.  What is laid
out at the one is laid out at the other, within definitions that are in both. -/
structure Follows (name : String) (s : Stmt) (owner : Option String) (p p' : Place) : Prop where
  names : p.names.Agree name s owner p'.names
  spares : p.names.Spares name
  expand : ∀ inline id d d' ps, id.name ≠ name → (p.names.definition? id.name).isSome →
    Expr.Spares name d → Expr.Named name s owner id.name d d' →
    p.expand inline id d = .ok ps → p'.expand inline id d' = .ok ps

theorem ne_of_loneName? {es args : List Expr} {id : Identifier} (he : Expr.AllSpare name es)
    (hl : loneName? es args = some id) : id.name ≠ name := by
  unfold loneName? at hl
  split at hl
  · cases hl
    exact Expr.spares_ident.mp (Expr.allSpare_cons.mp he).1
  · cases hl
    exact Expr.spares_stitch.mp (Expr.allSpare_cons.mp he).1
  · cases hl

namespace Follows

variable {p p' : Place}

theorem definition_cases (h : Follows name s owner p p') {y : String} (hy : y ≠ name) :
    (p.names.definition? y = none ∧ p'.names.definition? y = none) ∨
      ∃ d d', p.names.definition? y = some d ∧ p'.names.definition? y = some d' ∧
        Expr.Spares name d ∧ Expr.Named name s owner y d d' := by
  obtain hnone | ⟨d, d', hd, hd', hnamed⟩ := h.names.cases hy
  · exact .inl hnone
  · exact .inr ⟨d, d', hd, hd', h.spares.of_definition hd, hnamed⟩

theorem loneRow?_eq (h : Follows name s owner p p') {es : List Expr} (he : Expr.AllSpare name es)
    (args : List Expr) :
    loneRow? p'.names es args = loneRow? p.names es args := by
  cases hl : loneName? es args with
  | none => simp [loneRow?, hl]
  | some id =>
    obtain ⟨hd, hd'⟩ | ⟨d, d', hd, hd', -, hnamed⟩ := h.definition_cases (ne_of_loneName? he hl)
    · simp [loneRow?, hl, hd, hd']
    · cases hnamed with
      | same => simp [loneRow?, hl, hd, hd']
      | group => simp [loneRow?, hl, hd, hd']

end Follows

section

variable {p p' : Place}

theorem elements_cons {inline : Bool} {e : Expr} {es : List Expr} {ps qs : List Piece}
    (h : element p inline e = .ok ps) (hs : elements p inline es = .ok qs) :
    elements p inline (e :: es) = .ok (ps ++ qs) := by
  simp only [elements, h, hs]
  rfl

theorem exists_of_elements_cons {inline : Bool} {e : Expr} {es : List Expr} {ps : List Piece}
    (h : elements p inline (e :: es) = .ok ps) :
    ∃ qs rs, element p inline e = .ok qs ∧ elements p inline es = .ok rs ∧ ps = qs ++ rs := by
  obtain ⟨qs, hqs, h⟩ := exists_of_bind_ok h
  obtain ⟨rs, hrs, h⟩ := exists_of_bind_ok h
  exact ⟨qs, rs, hqs, hrs, (Except.ok.inj h).symm⟩

theorem statements_cons {t : Stmt} {ts : List Stmt} {rs us : List Record}
    (h : statement p t = .ok rs) (hs : statements p ts = .ok us) :
    statements p (t :: ts) = .ok (rs ++ us) := by
  simp only [statements, h, hs]
  rfl

theorem exists_of_statements_cons {t : Stmt} {ts : List Stmt} {rs : List Record}
    (h : statements p (t :: ts) = .ok rs) :
    ∃ qs us, statement p t = .ok qs ∧ statements p ts = .ok us ∧ rs = qs ++ us := by
  obtain ⟨qs, hqs, h⟩ := exists_of_bind_ok h
  obtain ⟨us, hus, h⟩ := exists_of_bind_ok h
  exact ⟨qs, us, hqs, hus, (Except.ok.inj h).symm⟩

mutual

theorem element_follows (hp : Follows name s owner p p') {inline : Bool} {e : Expr}
    (he : Expr.Spares name e) {ps : List Piece} (h : element p inline e = .ok ps) :
    element p' inline e = .ok ps := by
  cases e with
  | ident id =>
    have hid : id.name ≠ name := Expr.spares_ident.mp he
    simp only [element] at h ⊢
    obtain ⟨hd, hd'⟩ | ⟨d, d', hd, hd', hs, hnamed⟩ := hp.definition_cases hid
    · simp only [hd] at h
      cases h
    · simp only [hd] at h
      simp only [hd']
      exact hp.expand _ _ _ _ _ hid (by simp [hd]) hs hnamed h
  | size size => exact h
  | stitch position id args =>
    have hid : id.name ≠ name := Expr.spares_stitch.mp he
    simp only [element] at h ⊢
    obtain ⟨hd, hd'⟩ | ⟨d, d', hd, hd', hs, hnamed⟩ := hp.definition_cases hid
    · simp only [hd] at h
      simp only [hd', ← stitchFragment_of_synonyms hp.names.synonyms]
      exact h
    · simp only [hd] at h
      obtain ⟨qs, hqs, h⟩ := exists_of_bind_ok h
      cases h
      simp only [hd', hp.expand _ _ _ _ _ hid (by simp [hd]) hs hnamed hqs,
        texts_of_synonyms hp.names.synonyms]
      rfl
  | row es args =>
    obtain ⟨qs, hqs, h⟩ := exists_of_bind_ok h
    cases h
    simp only [element, elements_follows hp (Expr.spares_row.mp he) hqs,
      braced_of_synonyms hp.names.synonyms]
    rfl
  | group lbrace rbrace args lines =>
    rw [Expr.spares_group] at he
    simp only [element] at h ⊢
    split at h
    · cases h
    · rename_i hi
      obtain ⟨rs, hrs, h⟩ := exists_of_bind_ok h
      cases h
      simp only [if_neg hi, statements_follows hp he hrs, texts_of_synonyms hp.names.synonyms]
      rfl

theorem elements_follows (hp : Follows name s owner p p') {inline : Bool} {es : List Expr}
    (he : Expr.AllSpare name es) {ps : List Piece} (h : elements p inline es = .ok ps) :
    elements p' inline es = .ok ps := by
  cases es with
  | nil => exact h
  | cons e es =>
    rw [Expr.allSpare_cons] at he
    obtain ⟨qs, rs, hqs, hrs, rfl⟩ := exists_of_elements_cons h
    exact elements_cons (element_follows hp he.1 hqs) (elements_follows hp he.2 hrs)

theorem statement_follows (hp : Follows name s owner p p') {t : Stmt} (ht : Stmt.Spares name t)
    {rs : List Record} (h : statement p t = .ok rs) : statement p' t = .ok rs := by
  cases t with
  | synonym lhs rhs desc => exact h
  | define lhs rhs desc => exact h
  | row es args desc =>
    rw [Stmt.spares_row] at ht
    simp only [statement, hp.loneRow?_eq ht] at h ⊢
    split at h
    · rename_i id es' args' hr
      obtain ⟨ps, hps, h⟩ := exists_of_bind_ok h
      cases h
      have hid := ne_of_loneName? ht (loneName?_of_loneRow? hr)
      obtain ⟨-, -, hname⟩ := exists_of_loneRow? hr
      have hs : Expr.Spares name (.row es' []) :=
        Expr.spares_row.mpr (Expr.spares_row.mp (hp.spares.of_definition hname))
      have hps' := hp.expand _ _ _ _ _ hid (by simp [hname]) hs (.same _) hps
      simp only [hps', texts_of_synonyms hp.names.synonyms]
      rfl
    · obtain ⟨ps, hps, h⟩ := exists_of_bind_ok h
      cases h
      simp only [elements_follows hp ht hps, texts_of_synonyms hp.names.synonyms]
      rfl
  | group lbrace rbrace args lines desc =>
    obtain ⟨qs, hqs, h⟩ := exists_of_bind_ok h
    cases h
    simp only [statement, statements_follows hp (Stmt.spares_group.mp ht) hqs,
      texts_of_synonyms hp.names.synonyms]
    rfl
  | block ss start stop desc =>
    obtain ⟨qs, hqs, h⟩ := exists_of_bind_ok h
    cases h
    simp only [statement, statements_follows hp (Stmt.spares_block.mp ht) hqs]
    rfl

theorem statements_follows (hp : Follows name s owner p p') {ts : List Stmt}
    (ht : Stmt.AllSpare name ts) {rs : List Record} (h : statements p ts = .ok rs) :
    statements p' ts = .ok rs := by
  cases ts with
  | nil => exact h
  | cons t ts =>
    rw [Stmt.allSpare_cons] at ht
    obtain ⟨qs, us, hqs, hrs, rfl⟩ := exists_of_statements_cons h
    exact statements_cons (statement_follows hp ht.1 hqs) (statements_follows hp ht.2 hrs)

end

theorem definitionPieces_follows (hp : Follows name s owner p p') {inline : Bool} {d : Expr}
    (hd : Expr.Spares name d) {ps : List Piece} (h : definitionPieces p inline d = .ok ps) :
    definitionPieces p' inline d = .ok ps := by
  cases d with
  | row es args =>
    cases args with
    | nil =>
      have h : elements p inline es = .ok ps := h
      exact elements_follows hp (Expr.spares_row.mp hd) h
    | cons arg args =>
      have h : element p inline (.row es (arg :: args)) = .ok ps := h
      exact element_follows hp hd h
  | group lbrace rbrace args lines => exact element_follows hp hd h
  | ident id => exact element_follows hp hd h
  | size size => exact h
  | stitch position id args => exact element_follows hp hd h

/-- At a place, the name of the statement is laid out as the statement is. -/
def Place.Knits (name : String) (s : Stmt) (p p' : Place) : Prop :=
  ∀ rs, statement p s = .ok rs → ∀ place use,
    statement p' (.row [.stitch place ⟨use, name⟩ []] [] .none) = .ok rs

/-- Statements among which one gets a name, at places that are followed.  If the statement is not
within a definition of these statements, its name must be laid out at the place. -/
theorem statements_named (hp : Follows name s owner p p') {o : Option String} {ss ss' : List Stmt}
    (h : Stmt.Named name s o ss ss') (hs : Stmt.AllSpare name ss)
    (hk : o = none → p.Knits name s p') {rs : List Record} (hrs : statements p ss = .ok rs) :
    statements p' ss' = .ok rs := by
  induction h generalizing rs with
  | @here d given use place desc ss hd =>
    rw [Stmt.allSpare_cons] at hs
    obtain ⟨qs, ts, hqs, hts, rfl⟩ := exists_of_statements_cons hrs
    have hdefine : statement p' (.define ⟨given, name⟩ d desc) = .ok [] := rfl
    have hrow := statements_cons (hk rfl qs hqs place use) (statements_follows hp hs.2 hts)
    have hboth := statements_cons hdefine hrow
    exact hboth
  | group h ih =>
    rw [Stmt.allSpare_cons, Stmt.spares_group] at hs
    obtain ⟨qs, ts, hqs, hts, rfl⟩ := exists_of_statements_cons hrs
    obtain ⟨us, hus, hqs⟩ := exists_of_bind_ok hqs
    cases hqs
    refine statements_cons ?_ (statements_follows hp hs.2 hts)
    simp only [statement, ih hs.1 hk hus, texts_of_synonyms hp.names.synonyms]
    rfl
  | define h ih =>
    rw [Stmt.allSpare_cons] at hs
    obtain ⟨qs, ts, hqs, hts, rfl⟩ := exists_of_statements_cons hrs
    cases hqs
    exact statements_cons rfl (statements_follows hp hs.2 hts)
  | block h ih =>
    rw [Stmt.allSpare_cons, Stmt.spares_block] at hs
    obtain ⟨qs, ts, hqs, hts, rfl⟩ := exists_of_statements_cons hrs
    obtain ⟨us, hus, hqs⟩ := exists_of_bind_ok hqs
    cases hqs
    refine statements_cons ?_ (statements_follows hp hs.2 hts)
    simp only [statement, ih hs.1 hk hus]
    rfl
  | later h ih =>
    rw [Stmt.allSpare_cons] at hs
    obtain ⟨qs, ts, hqs, hts, rfl⟩ := exists_of_statements_cons hrs
    exact statements_cons (statement_follows hp hs.1 hqs) (ih hs.2 hk hts)

end

/-- A definition in which a statement gets a name, at places that are followed.  The name must be laid
out there if the definition is the one that the statement stands in. -/
theorem definitionPieces_named {p p' : Place} (hp : Follows name s owner p p') {y : String}
    {d d' : Expr} (hd : Expr.Spares name d) (h : Expr.Named name s owner y d d')
    (hk : owner = some y → p.Knits name s p') {inline : Bool} {ps : List Piece}
    (hps : definitionPieces p inline d = .ok ps) : definitionPieces p' inline d' = .ok ps := by
  cases h with
  | same => exact definitionPieces_follows hp hd hps
  | @group o lbrace rbrace args lines lines' hl ho =>
    simp only [definitionPieces, element] at hps ⊢
    split at hps
    · cases hps
    · rename_i hi
      obtain ⟨rs, hrs, hps⟩ := exists_of_bind_ok hps
      cases hps
      have hown (hn : o = none) : p.Knits name s p' := by
        subst hn
        exact hk ho
      have hlines := statements_named hp hl (Expr.spares_group.mp hd) hown hrs
      simp only [if_neg hi, hlines, texts_of_synonyms hp.names.synonyms]
      rfl

/-- A definition that is laid out was not in use, and its pieces are laid out where it is. -/
theorem exists_of_expand_ok {n : Names} {u : Nat} {w : List String} {inline : Bool}
    {id : Identifier} {d : Expr} {ps : List Piece} (h : expand n u w inline id d = .ok ps) :
    id.name ∉ w ∧ ∃ k, u = k + 1 ∧
      definitionPieces ⟨n, id.name :: w, expand n k (id.name :: w)⟩ inline d = .ok ps := by
  cases u with
  | zero =>
    simp only [expand] at h
    split at h <;> cases h
  | succ k =>
    simp only [expand] at h
    split at h
    · cases h
    · rename_i hw
      exact ⟨hw, k, rfl, h⟩

theorem InUse.exists_enter {n : Names} {u : Nat} {w : List String} (h : InUse n u w) {y : String}
    (hd : (n.definition? y).isSome) (hw : y ∉ w) : ∃ v, u = v + 1 ∧ InUse n v (y :: w) := by
  obtain ⟨v, rfl⟩ := Nat.exists_eq_succ_of_ne_zero (Nat.ne_of_gt (h.unused_pos hd hw))
  exact ⟨v, rfl, h.enter hd hw⟩

/-- A row that is just a name, but for no row with arguments, is what the name stands for. -/
theorem statement_name {p : Place} {place : Position} {id : Identifier} {d : Expr} {ps : List Piece}
    (hd : p.names.definition? id.name = some d) (hr : ∀ es arg args, d ≠ .row es (arg :: args))
    (h : p.expand false id d = .ok ps) :
    statement p (.row [.stitch place id []] [] .none) = .ok (Piece.assemble [] [] .empty ps) := by
  have hl : loneRow? p.names [.stitch place id []] [] = none := by
    cases d with
    | row es args =>
      cases args with
      | nil => simp [loneRow?, loneName?, hd]
      | cons arg args => exact absurd rfl (hr es arg args)
    | ident _ => simp [loneRow?, loneName?, hd]
    | size _ => simp [loneRow?, loneName?, hd]
    | stitch _ _ _ => simp [loneRow?, loneName?, hd]
    | group _ _ _ _ => simp [loneRow?, loneName?, hd]
  have hpieces : elements p false [.stitch place id []] = .ok (.args [] :: (ps ++ [])) := by
    simp only [elements, element, hd, h]
    rfl
  have hrecords : statementRecords .none [] (.args [] :: (ps ++ [])) =
      Piece.assemble [] [] .empty ps := by
    rw [List.append_nil]
    rfl
  simp only [statement, hl, hpieces]
  exact congrArg Except.ok hrecords

/-- A statement without a description that is not itself just a name, for a row with arguments. -/
structure Nameable (n : Names) (s : Stmt) : Prop where
  undescribed : s.desc.lines = []
  notLone : ∀ es args desc, s = .row es args desc → loneRow? n es args = none

/-- The names of a pattern, and those of the pattern in which a statement has its name. -/
structure Naming (name : String) (s : Stmt) (owner : Option String) (n n' : Names) : Prop where
  agree : n.Agree name s owner n'
  spares : n.Spares name
  definition : ∃ d, s.knitted? = some d ∧ n'.definition? name = some d
  spared : s.Spares name

namespace Naming

/-- The name of a statement is laid out as the statement is, if its definition is laid out at a place
that follows. -/
theorem knits {p p' q : Place} (h : Naming name s owner p.names p'.names)
    (hs : Nameable p.names s) (hq : Follows name s owner p q)
    (hexpand : ∀ use d, p'.expand false ⟨use, name⟩ d = definitionPieces q false d) :
    p.Knits name s p' := by
  obtain ⟨d, hd, hname⟩ := h.definition
  intro rs hrs place use
  cases s with
  | row es args desc =>
    cases hd
    have hdesc : desc.lines = [] := hs.undescribed
    have hspared := h.spared
    simp only [statement, hs.notLone es args desc rfl] at hrs
    obtain ⟨ps, hps, hrs⟩ := exists_of_bind_ok hrs
    cases hrs
    have hps' := elements_follows hq (Stmt.spares_row.mp hspared) hps
    cases args with
    | nil =>
      have hpieces : p'.expand false ⟨use, name⟩ (.row es []) = .ok ps :=
        (hexpand use _).trans hps'
      rw [statement_name hname (by simp) hpieces, statementRecords, hdesc]
      rfl
    | cons arg args =>
      have hl : loneRow? p'.names [.stitch place ⟨use, name⟩ []] [] =
          some (⟨use, name⟩, es, arg :: args) := by
        simp [loneRow?, loneName?, hname]
      have hpieces : p'.expand false ⟨use, name⟩ (.row es []) = .ok ps :=
        (hexpand use _).trans hps'
      simp only [statement, hl, hpieces, statementRecords, hdesc,
        texts_of_synonyms h.agree.synonyms]
      rfl
  | group lbrace rbrace args lines desc =>
    cases hd
    have hdesc : desc.lines = [] := hs.undescribed
    have hspared := h.spared
    obtain ⟨qs, hqs, hrs⟩ := exists_of_bind_ok hrs
    cases hrs
    have hqs' := statements_follows hq (Stmt.spares_group.mp hspared) hqs
    have hpieces : p'.expand false ⟨use, name⟩ (.group lbrace rbrace args lines) =
        .ok [.records (groupRecords [] (Brackets.texts q.names args) qs)] := by
      rw [hexpand]
      simp only [definitionPieces, element, hqs']
      rfl
    have hrecords : Piece.assemble [] [] .empty
        [.records (groupRecords [] (Brackets.texts q.names args) qs)] =
          groupRecords [] (Brackets.texts q.names args) qs := by
      simp [Piece.assemble, Piece.rowRecords, Content.isEmpty, Content.empty]
    rw [statement_name hname (by simp) hpieces, hrecords, hdesc,
      texts_of_synonyms hq.names.synonyms]
  | synonym lhs rhs desc => cases hd
  | define lhs rhs desc => cases hd
  | block ss start stop desc => cases hd

variable {n n' : Names} {u u' : Nat} {w w' : List String}

/-- What is laid out before and after, if the pieces of each definition that is not in use are. -/
theorem follows_of_step (h : Naming name s owner n n') (hu : InUse n' u' w')
    (hsub : ∀ y, y ≠ name → y ∈ w' → y ∈ w)
    (hstep : ∀ k v inline y d d' ps, u = k + 1 → u' = v + 1 → InUse n' v (y :: w') → y ≠ name →
      y ∉ w → Expr.Spares name d → Expr.Named name s owner y d d' →
      definitionPieces ⟨n, y :: w, expand n k (y :: w)⟩ inline d = .ok ps →
      definitionPieces ⟨n', y :: w', expand n' v (y :: w')⟩ inline d' = .ok ps) :
    Follows name s owner ⟨n, w, expand n u w⟩ ⟨n', w', expand n' u' w'⟩ := by
  refine ⟨h.agree, h.spares, fun inline id d d' ps hid hdef hd hnamed he => ?_⟩
  obtain ⟨hw, k, hk, he⟩ := exists_of_expand_ok he
  have hw' : id.name ∉ w' := fun hm => hw (hsub _ hid hm)
  obtain ⟨v, rfl, hv⟩ := hu.exists_enter (h.agree.isSome hid hdef) hw'
  simp only [expand, if_neg hw']
  exact hstep k v inline id.name d d' ps hk rfl hv hid hw hd hnamed he

/-- Within the definition that the statement stands in, all definitions but the new one are laid out
as before, for that definition is in use. -/
theorem expand_follows_within (h : Naming name s owner n n') (hu : InUse n' u' w')
    (hsub : ∀ y, y ≠ name → y ∈ w' → y ∈ w) (howner : ∀ x, owner = some x → x ∈ w) :
    Follows name s owner ⟨n, w, expand n u w⟩ ⟨n', w', expand n' u' w'⟩ := by
  induction u generalizing u' w w' with
  | zero => exact h.follows_of_step hu hsub fun _ _ _ _ _ _ _ hk => nomatch hk
  | succ u ih =>
    refine h.follows_of_step hu hsub ?_
    rintro k v inline y d d' ps hk rfl hv hy hw hd hnamed he
    cases hk
    have hf : Follows name s owner ⟨n, y :: w, expand n u (y :: w)⟩
        ⟨n', y :: w', expand n' v (y :: w')⟩ := by
      apply ih hv
      · intro z hz hm
        rcases List.mem_cons.mp hm with rfl | hm
        · exact List.mem_cons_self
        · exact List.mem_cons_of_mem _ (hsub z hz hm)
      · intro x hx
        exact List.mem_cons_of_mem _ (howner x hx)
    apply definitionPieces_named hf hd hnamed _ he
    intro hown
    exact absurd (howner _ hown) hw

/-- Where its owner is in use and the name is not, the name is laid out as the statement is. -/
theorem knits_expand (h : Naming name s owner n n') (hs : Nameable n s) (hu : InUse n' u' w)
    (hw : name ∉ w) (howner : ∀ x, owner = some x → x ∈ w) :
    Place.Knits name s ⟨n, w, expand n u w⟩ ⟨n', w, expand n' u' w⟩ := by
  obtain ⟨d, -, hname⟩ := h.definition
  obtain ⟨v, rfl, hv⟩ := hu.exists_enter (by simp [hname]) hw
  have hq : Follows name s owner ⟨n, w, expand n u w⟩ ⟨n', name :: w, expand n' v (name :: w)⟩ := by
    apply h.expand_follows_within hv _ howner
    intro y hy hm
    exact (List.mem_cons.mp hm).resolve_left hy
  exact h.knits hs hq fun use d => by simp only [expand, if_neg hw]

/-- Where the name is not in use, all definitions but the new one are laid out as before. -/
theorem expand_follows (h : Naming name s owner n n') (hs : Nameable n s) (hu : InUse n' u' w)
    (hw : name ∉ w) : Follows name s owner ⟨n, w, expand n u w⟩ ⟨n', w, expand n' u' w⟩ := by
  induction u generalizing u' w with
  | zero => exact h.follows_of_step hu (fun _ _ hm => hm) fun _ _ _ _ _ _ _ hk => nomatch hk
  | succ u ih =>
    refine h.follows_of_step hu (fun _ _ hm => hm) ?_
    rintro k v inline y d d' ps hk rfl hv hy - hd hnamed he
    cases hk
    have hnot : name ∉ y :: w := by
      simpa [hw] using hy.symm
    apply definitionPieces_named (ih hv hnot) hd hnamed _ he
    intro hown
    apply h.knits_expand hs hv hnot
    intro x hx
    cases hown.symm.trans hx
    exact List.mem_cons_self

end Naming

section

variable {p : Place}

/-- At a place, what definitions become within a row they become outside as well. -/
def Place.Lifts (p : Place) : Prop :=
  ∀ id d ps, p.expand true id d = .ok ps → p.expand false id d = .ok ps

theorem element_lift (hp : p.Lifts) {e : Expr} {ps : List Piece} (h : element p true e = .ok ps) :
    element p false e = .ok ps := by
  cases e with
  | ident id =>
    simp only [element] at h ⊢
    split at h
    · exact hp _ _ _ h
    · cases h
  | size size => exact h
  | stitch position id args =>
    simp only [element] at h ⊢
    split at h
    · obtain ⟨qs, hqs, h⟩ := exists_of_bind_ok h
      cases h
      simp only [hp _ _ _ hqs]
      rfl
    · exact h
  | row es args => exact h
  | group lbrace rbrace args lines => cases h

theorem elements_lift (hp : p.Lifts) {es : List Expr} {ps : List Piece}
    (h : elements p true es = .ok ps) : elements p false es = .ok ps := by
  induction es generalizing ps with
  | nil => exact h
  | cons e es ih =>
    obtain ⟨qs, rs, hqs, hrs, rfl⟩ := exists_of_elements_cons h
    exact elements_cons (element_lift hp hqs) (ih hrs)

theorem definitionPieces_lift (hp : p.Lifts) {d : Expr} {ps : List Piece}
    (h : definitionPieces p true d = .ok ps) : definitionPieces p false d = .ok ps := by
  unfold definitionPieces at h ⊢
  split at h
  · exact elements_lift hp h
  · exact element_lift hp h

end

variable {n n' : Names} {u u' : Nat} {w : List String}

theorem expand_lifts (n : Names) (u : Nat) (w : List String) : Place.Lifts ⟨n, w, expand n u w⟩ := by
  induction u generalizing w with
  | zero =>
    intro id d ps h
    obtain ⟨-, k, hk, -⟩ := exists_of_expand_ok h
    cases hk
  | succ u ih =>
    intro id d ps h
    obtain ⟨hw, k, hk, h⟩ := exists_of_expand_ok h
    cases hk
    simp only [expand, if_neg hw]
    exact definitionPieces_lift (ih _) h

/-- What the name of a row with arguments is laid out as: that row between braces. -/
theorem exists_of_bracedName {n : Names} {u : Nat} {w : List String} {id : Identifier}
    {es₀ es args : List Expr} {arg : Expr} {qs : List Piece}
    (hes : es₀ = [.ident id] ∨ ∃ position, es₀ = [.stitch position id []])
    (hd : n.definition? id.name = some (.row es (arg :: args)))
    (h : elements ⟨n, w, expand n u w⟩ false es₀ = .ok qs) :
    id.name ∉ w ∧ ∃ k ps, u = k + 1 ∧
      elements ⟨n, id.name :: w, expand n k (id.name :: w)⟩ true es = .ok ps ∧
      (qs = braced n (arg :: args) ps ∨ qs = .args [] :: braced n (arg :: args) ps) := by
  obtain ⟨rs, hrs, hqs⟩ : ∃ rs, expand n u w false id (.row es (arg :: args)) = .ok rs ∧
      (qs = rs ∨ qs = .args [] :: rs) := by
    rcases hes with rfl | ⟨position, rfl⟩
    · obtain ⟨rs, hrs, h⟩ := exists_of_bind_ok h
      cases h
      simp only [element, hd] at hrs
      exact ⟨rs, hrs, .inl (List.append_nil rs)⟩
    · obtain ⟨ts, hts, h⟩ := exists_of_bind_ok h
      cases h
      simp only [element, hd] at hts
      obtain ⟨rs, hrs, hts⟩ := exists_of_bind_ok hts
      cases hts
      exact ⟨rs, hrs, .inr (by simp [Brackets.texts])⟩
  obtain ⟨hw, k, rfl, hpieces⟩ := exists_of_expand_ok hrs
  obtain ⟨ps, hps, hb⟩ := exists_of_bind_ok hpieces
  cases hb
  exact ⟨hw, k, ps, rfl, hps, hqs⟩

theorem exists_cons_of_loneRow? {n : Names} {es₀ args₀ es args : List Expr} {id : Identifier}
    (h : loneRow? n es₀ args₀ = some (id, es, args)) : ∃ arg rest, args = arg :: rest := by
  obtain ⟨id', -, h⟩ := Option.bind_eq_some_iff.mp h
  obtain ⟨d, -, h⟩ := Option.bind_eq_some_iff.mp h
  split at h <;> cases h
  exact ⟨_, _, rfl⟩

/-- A statement that is just a name, for a row with arguments, and the name of that statement.  Both
are laid out with the same pieces: the statement as that row, which its count repeats, and the name
as a row that has them between braces. -/
theorem Naming.nameOfName (h : Naming name s owner n n') (hu : InUse n' u' w) (hw : name ∉ w)
    (howner : ∀ x, owner = some x → x ∈ w) {es₀ es args : List Expr} {id : Identifier}
    {desc : Description} (hs : s = .row es₀ [] desc) (hl : loneRow? n es₀ [] = some (id, es, args))
    {rs rs' : List Record} (hrs : statement ⟨n, w, expand n u w⟩ s = .ok rs) {place use : Position}
    (hrs' : statement ⟨n', w, expand n' u' w⟩ (.row [.stitch place ⟨use, name⟩ []] [] .none) =
      .ok rs') :
    ∃ ps, rs = statementRecords desc (Brackets.texts n args) ps ∧
      rs' = Piece.assemble [] [] .empty (braced n args ps) := by
  subst hs
  obtain ⟨-, hes, hd⟩ := exists_of_loneRow? hl
  obtain ⟨arg, rest, rfl⟩ := exists_cons_of_loneRow? hl
  have hid : id.name ≠ name := ne_of_loneName? (Stmt.spares_row.mp h.spared) (loneName?_of_loneRow? hl)
  obtain ⟨d, hknit, hname⟩ := h.definition
  cases hknit
  have hd' : n'.definition? id.name = some (.row es (arg :: rest)) := by
    obtain ⟨hnone, -⟩ | ⟨e, e', he, he', hnamed⟩ := h.agree.cases hid
    · cases hd.symm.trans hnone
    · cases hd.symm.trans he
      cases hnamed
      exact he'
  simp only [statement, hl] at hrs
  obtain ⟨ps, hps, hrs⟩ := exists_of_bind_ok hrs
  cases hrs
  obtain ⟨-, k, rfl, hpieces⟩ := exists_of_expand_ok hps
  have hold : elements ⟨n, id.name :: w, expand n k (id.name :: w)⟩ false es = .ok ps := hpieces
  cases hq : expand n' u' w false ⟨use, name⟩ (.row es₀ []) with
  | error e =>
    have hlone : loneRow? n' [.stitch place ⟨use, name⟩ []] [] = none := by
      simp [loneRow?, loneName?, hname]
    simp only [statement, hlone, elements, element, hname, hq] at hrs'
    cases hrs'
  | ok qs =>
    have hrecords : statement ⟨n', w, expand n' u' w⟩ (.row [.stitch place ⟨use, name⟩ []] [] .none) =
        .ok (Piece.assemble [] [] .empty qs) := statement_name hname (by simp) hq
    cases hrecords.symm.trans hrs'
    obtain ⟨-, v, rfl, hpieces'⟩ := exists_of_expand_ok hq
    have hnew : elements ⟨n', name :: w, expand n' v (name :: w)⟩ false es₀ = .ok qs := hpieces'
    obtain ⟨hnot, v, ps', rfl, hps', hqs⟩ := exists_of_bracedName hes hd' hnew
    have hf : Follows name (.row es₀ [] desc) owner ⟨n, id.name :: w, expand n k (id.name :: w)⟩
        ⟨n', id.name :: name :: w, expand n' v (id.name :: name :: w)⟩ := by
      apply h.expand_follows_within
      · exact (hu.enter (by simp [hname]) hw).enter (by simp [hd']) hnot
      · intro y hy hm
        simpa [hy] using hm
      · intro x hx
        exact List.mem_cons_of_mem _ (howner x hx)
    have hes' := Expr.spares_row.mp (h.spares.of_definition hd)
    cases (elements_lift (expand_lifts n' v _) hps').symm.trans (elements_follows hf hes' hold)
    refine ⟨ps, rfl, ?_⟩
    rw [braced_of_synonyms h.agree.synonyms]
    rcases hqs with rfl | rfl
    · rfl
    · rfl

end Layout

open Layout

/-- Giving a name to a row or a group of a pattern does not change the records, wherever it stands.
The name is new, and the statement has no description and is not itself just a name, for a row with
a count. -/
theorem Block.records_named {b : Block} {ss : List Stmt} (h : Stmt.Named name s owner b.statements ss)
    (hf : Stmt.AllSpare name b.statements) (hs : Nameable (Names.ofBlock b) s) {rs : List Record}
    (hr : b.records = .ok rs) : ({ b with statements := ss } : Block).records = .ok rs := by
  let n := Names.ofBlock b
  let n' := Names.ofStmts ss
  have hn : Naming name s owner n n' :=
    ⟨Names.agree_ofStmts h, Names.everywhere_ofStmts hf, Names.definition?_ofStmts h hf,
      h.everywhere hf⟩
  have hu : InUse n' n'.definitions.length [] := .none (Nat.le_refl _)
  have hp : Follows name s owner (outside n) (outside n') :=
    hn.expand_follows hs hu List.not_mem_nil
  have hk : owner = none → Place.Knits name s (outside n) (outside n') := by
    rintro rfl
    apply hn.knits_expand hs hu List.not_mem_nil
    intro x hx
    cases hx
  obtain ⟨rs', hrs', rfl⟩ := exists_of_map_ok hr
  exact congrArg (Except.map (blockRecords b.desc)) (statements_named hp h hf hk hrs')

/-- Nor does it change the states. -/
theorem Compilation.states_named {b : Block} {ss : List Stmt}
    (h : Stmt.Named name s owner b.statements ss) (hf : Stmt.AllSpare name b.statements)
    (hs : Nameable (Names.ofBlock b) s) {sts : List State} (hst : states b = .ok sts) :
    states { b with statements := ss } = .ok sts := by
  obtain ⟨rs, hr, hss⟩ := states_eq_ok_iff.mp hst
  exact states_eq_ok_iff.mpr ⟨rs, Block.records_named h hf hs hr, hss⟩

/-- A group `g` of the row `k` and other statements, and the row `g`. -/
def Block.groupAndUse (lines : List Stmt) : Block :=
  let stitch (p : Position) (s : String) : Expr := .stitch p ⟨p, s⟩ []
  ⟨[.define ⟨⟨1, 1⟩, "g"⟩ (.group ⟨1, 5⟩ ⟨4, 1⟩ [] (.row [stitch ⟨2, 1⟩ "k"] [] .none :: lines)) .none,
    .row [stitch ⟨5, 1⟩ "g"] [] .none], ⟨1, 1⟩, ⟨6, 0⟩, .none⟩

/-- `{p}(2)` -/
def Stmt.countedPurl : Stmt := .row [.stitch ⟨3, 2⟩ ⟨⟨3, 2⟩, "p"⟩ []] [.count ⟨3, 5⟩ 2] .none

/-- `m = {p}(2)` and the row `m` -/
def Stmt.namedPurl : List Stmt :=
  [.define ⟨.start, "m"⟩ (.row [.stitch ⟨3, 2⟩ ⟨⟨3, 2⟩, "p"⟩ []] [.count ⟨3, 5⟩ 2]) .none,
    .row [.stitch .start ⟨.start, "m"⟩ []] [] .none]

def State.plainAndPurl : List State :=
  let round (i : Nat) : State := { State.ofRow .none ["p"] ["2"] with rowRepeat := some ⟨i, 2⟩ }
  [State.ofRow .none ["k"] [], round 1, round 2]

theorem Compilation.states_named_countedPurl :
    Pattern.ofSources ["g = \x7b\nk\n\x7bp\x7d(2)\n\x7d\ng\n"] =
      .ok (Block.groupAndUse [.countedPurl]) ∧
    states (Block.groupAndUse [.countedPurl]) = .ok State.plainAndPurl ∧
    states (Block.groupAndUse Stmt.namedPurl) = .ok State.plainAndPurl := by
  have hst : states (Block.groupAndUse [.countedPurl]) = .ok State.plainAndPurl := by
    decide +kernel
  have hs : Nameable (Names.ofBlock (Block.groupAndUse [.countedPurl])) .countedPurl := by
    refine ⟨rfl, fun es args desc he => ?_⟩
    cases he
    exact loneRow?_cons _ _ _ _
  have hnamed : Stmt.Named "m" .countedPurl none [.countedPurl] Stmt.namedPurl := .here rfl
  exact ⟨rfl, hst, states_named (.define (.later hnamed)) (by decide) hs hst⟩

/-- The row `rib` is the row `{k p}(2)`, repeated; its name is a row with braces in it. -/
theorem Compilation.name_of_name :
    let stitch (p : Position) (s : String) : Expr := .stitch p ⟨p, s⟩ []
    let rib : Stmt := .define ⟨⟨1, 1⟩, "rib"⟩
      (.row [stitch ⟨1, 8⟩ "k", stitch ⟨1, 10⟩ "p"] [Expr.count ⟨1, 13⟩ 2]) .none
    let use : Stmt := .row [stitch ⟨2, 1⟩ "rib"] [] .none
    let ss : List Stmt :=
      [rib, .define ⟨.start, "m"⟩ (.row [stitch ⟨2, 1⟩ "rib"] []) .none,
        .row [.stitch .start ⟨.start, "m"⟩ []] [] .none]
    let b : Block := ⟨[rib, use], ⟨1, 1⟩, ⟨3, 0⟩, .none⟩
    Pattern.ofSources ["rib = \x7bk p\x7d(2)\nrib\n"] = .ok b ∧
    Stmt.Named "m" use none b.statements ss ∧
    Stmt.AllSpare "m" b.statements ∧ use.desc = .none ∧
    ∃ sts sts', states b = .ok sts ∧ states { b with statements := ss } = .ok sts' ∧
      sts.map State.row = [["k", "p"], ["k", "p"]] ∧
      sts'.map State.row = [["\x7b", "k", "p", "\x7d 2"]] ∧ sts ≠ sts' :=
  ⟨rfl, .later (.here rfl), by decide, rfl, _, _, rfl, rfl, rfl, rfl, by decide⟩

end KnittingPattern
