import KnittingPattern.Proofs.DefinitionNesting
import KnittingPattern.Proofs.DefinitionWalks
import KnittingPattern.Proofs.ReaderGrammar

/-! # Which patterns cannot be laid out

A pattern cannot be laid out exactly if a walk over it comes to something wrong, and the error is
what is wrong there.  Main theorem: `Block.records_walks`. -/

namespace KnittingPattern

namespace Layout

/-- A layout fails with one of these faults, if there are any. -/
def Judges {α : Type} (x : Except LayoutError α) (faults : LayoutError → Prop) : Prop :=
  match x with
  | .ok _ => ∀ e, ¬ faults e
  | .error e => faults e

namespace Judges

variable {α β γ : Type} {x : Except LayoutError α} {y : Except LayoutError β}
  {faults others : LayoutError → Prop}

theorem congr (h : Judges x faults) (hf : ∀ e, faults e ↔ others e) : Judges x others := by
  cases x with
  | ok a => exact fun e he => h e ((hf e).mpr he)
  | error e => exact (hf e).mp h

theorem map (f : α → β) (h : Judges x faults) : Judges (do return f (← x)) faults := by
  cases x <;> exact h

theorem both (f : α → β → γ) (hx : Judges x faults) (hy : Judges y others) :
    Judges (do return f (← x) (← y)) fun e => faults e ∨ others e := by
  cases x with
  | error e => exact .inl hx
  | ok a =>
    cases y with
    | error e => exact .inr hy
    | ok b => exact fun e he => he.elim (hx e) (hy e)

end Judges

/-- What is laid out where a definition is used fails with the faults of the definition. -/
def Place.Faithful (p : Place) : Prop :=
  ∀ inline id d, (p.names.definition? id.name).isSome →
    Judges (p.expand inline id d) fun e =>
      id.name ∈ p.within ∧ e = .circular id ∨
        Site.Faulty p.names ⟨id.name :: p.within, .definition inline false d⟩ e

section

open Site (Faulty)

variable {names : Names} {w : List String} {e : LayoutError}

/-- A definition without arguments, or one that is a group, does not ask where it is used. -/
theorem faulty_definition_whole {inline : Bool} {d : Expr}
    (h : ∀ es arg args, d ≠ .row es (arg :: args)) :
    Faulty names ⟨w, .definition inline true d⟩ e ↔
      Faulty names ⟨w, .definition inline false d⟩ e := by
  cases d with
  | row es args =>
    cases args with
    | nil => simp
    | cons arg args => exact absurd rfl (h es arg args)
  | _ => simp [Site.faulty_defined]

/-- What a row statement consists of may as well be one element of several, unless it is a name for
a row with arguments. -/
theorem faulty_element_whole {x : Expr} (h : loneRow? names [x] [] = none) :
    Faulty names ⟨w, .element false true x⟩ e ↔ Faulty names ⟨w, .element false false x⟩ e := by
  cases x with
  | ident id =>
    cases hd : names.definition? id.name with
    | none => simp [Site.faulty_undefined hd]
    | some d =>
      have hr : ∀ es arg args, d ≠ .row es (arg :: args) := by
        rintro es arg args rfl
        simp [loneRow?, loneName?, hd] at h
      simp [Site.faulty_ident hd, faulty_definition_whole hr]
  | stitch position name args =>
    cases hd : names.definition? name.name with
    | none => simp [Site.not_faulty_stitch hd]
    | some d =>
      cases args with
      | cons arg args => simp [Site.faulty_stitch hd]
      | nil =>
        have hr : ∀ es arg args, d ≠ .row es (arg :: args) := by
          rintro es arg args rfl
          simp [loneRow?, loneName?, hd] at h
        simp [Site.faulty_stitch hd, faulty_definition_whole hr]
  | size s => simp
  | row es args => simp
  | group lbrace rbrace args lines => simp [Site.faulty_lines]

/-- Such a statement has the faults of the row as if it stood in its place. -/
theorem faulty_loneRow {es args es' args' : List Expr} {id : Identifier} {desc : Description}
    (h : loneRow? names es args = some (id, es', args')) :
    Faulty names ⟨w, .statement (.row es args desc)⟩ e ↔
      id.name ∈ w ∧ e = .circular id ∨
        Faulty names ⟨id.name :: w, .definition false false (.row es' [])⟩ e := by
  obtain ⟨rfl, rfl | ⟨position, rfl⟩, hd⟩ := exists_of_loneRow? h
  · simp [Site.faulty_ident hd]
  · simp [Site.faulty_stitch hd]

/-- Any other row statement has the faults of its elements. -/
theorem faulty_row_elements {es args : List Expr} {desc : Description}
    (h : loneRow? names es args = none) :
    Faulty names ⟨w, .statement (.row es args desc)⟩ e ↔
      ∃ x ∈ es, Faulty names ⟨w, .element false false x⟩ e := by
  rw [Site.faulty_row]
  cases hw : args.isEmpty && es.length == 1 with
  | false => rfl
  | true =>
    obtain ⟨ha, hes⟩ := (Bool.and_eq_true _ _).mp hw
    obtain ⟨x, rfl⟩ := List.length_eq_one_iff.mp (beq_iff_eq.mp hes)
    cases List.isEmpty_iff.mp ha
    simp [faulty_element_whole h]

end

mutual

theorem element_judges {p : Place} (hp : p.Faithful) (inline : Bool) (e : Expr) :
    Judges (element p inline e) (Site.Faulty p.names ⟨p.within, .element inline false e⟩) := by
  cases e with
  | ident id =>
    cases hd : p.names.definition? id.name with
    | none =>
      simp only [element, hd]
      exact (Site.faulty_undefined hd).mpr rfl
    | some d =>
      simp only [element, hd]
      exact (hp inline id d (by rw [hd]; rfl)).congr fun e => (Site.faulty_ident hd).symm
  | size s => exact fun e => Site.not_faulty_size
  | stitch position name args =>
    cases hd : p.names.definition? name.name with
    | none =>
      simp only [element, hd]
      exact fun e => Site.not_faulty_stitch hd
    | some d =>
      simp only [element, hd]
      exact ((hp inline name d (by rw [hd]; rfl)).map _).congr (by simp [Site.faulty_stitch hd])
  | row es args =>
    exact ((elements_judges hp true es).map _).congr fun e => Site.faulty_nested.symm
  | group lbrace rbrace args lines =>
    cases inline with
    | true => exact Site.faulty_inlineGroup.mpr rfl
    | false => exact ((statements_judges hp lines).map _).congr fun e => Site.faulty_lines.symm

theorem elements_judges {p : Place} (hp : p.Faithful) (inline : Bool) (es : List Expr) :
    Judges (elements p inline es) fun e =>
      ∃ x ∈ es, Site.Faulty p.names ⟨p.within, .element inline false x⟩ e := by
  cases es with
  | nil => exact fun e => by simp
  | cons x es =>
    exact ((element_judges hp inline x).both _ (elements_judges hp inline es)).congr (by simp)

theorem statement_judges {p : Place} (hp : p.Faithful) (s : Stmt) :
    Judges (statement p s) (Site.Faulty p.names ⟨p.within, .statement s⟩) := by
  cases s with
  | synonym lhs rhs desc => exact fun e => Site.not_faulty_synonym
  | define lhs rhs desc => exact fun e => Site.not_faulty_define
  | row es args desc =>
    cases hr : loneRow? p.names es args with
    | none =>
      simp only [statement, hr]
      exact ((elements_judges hp false es).map _).congr fun e => (faulty_row_elements hr).symm
    | some found =>
      obtain ⟨id, es', args'⟩ := found
      obtain ⟨-, -, hd⟩ := exists_of_loneRow? hr
      simp only [statement, hr]
      exact ((hp false id (.row es' []) (by rw [hd]; rfl)).map _).congr fun e =>
        (faulty_loneRow hr).symm
  | group lbrace rbrace args lines desc =>
    exact ((statements_judges hp lines).map _).congr fun e => Site.faulty_group.symm
  | block ss start stop desc =>
    exact ((statements_judges hp ss).map _).congr fun e => Site.faulty_block.symm

theorem statements_judges {p : Place} (hp : p.Faithful) (ss : List Stmt) :
    Judges (statements p ss) fun e =>
      ∃ s ∈ ss, Site.Faulty p.names ⟨p.within, .statement s⟩ e := by
  cases ss with
  | nil => exact fun e => by simp
  | cons s ss => exact ((statement_judges hp s).both _ (statements_judges hp ss)).congr (by simp)

end

theorem definitionPieces_judges {p : Place} (hp : p.Faithful) (inline : Bool) (d : Expr) :
    Judges (definitionPieces p inline d)
      (Site.Faulty p.names ⟨p.within, .definition inline false d⟩) := by
  unfold definitionPieces
  split
  · exact (elements_judges hp inline _).congr (by simp)
  · rename_i hd
    refine (element_judges hp inline d).congr fun e => ?_
    cases d with
    | row es args =>
      cases args with
      | nil => exact absurd rfl (hd es)
      | cons arg args => simp
    | _ => simp [Site.faulty_defined]

/-- The use of definitions within each other is laid out as far as walks go.  There is always a
definition left for one that is not in use yet. -/
theorem expand_faithful {names : Names} {unused : Nat} {within : List String}
    (h : InUse names unused within) :
    Place.Faithful ⟨names, within, expand names unused within⟩ := by
  induction unused generalizing within with
  | zero =>
    intro inline id d hd
    by_cases hw : id.name ∈ within
    · simp only [expand, if_pos hw]
      exact .inl ⟨hw, rfl⟩
    · exact absurd (h.unused_pos hd hw) (Nat.lt_irrefl 0)
  | succ n ih =>
    intro inline id d hd
    by_cases hw : id.name ∈ within
    · simp only [expand, if_pos hw]
      exact .inl ⟨hw, rfl⟩
    · simp only [expand, if_neg hw]
      exact (definitionPieces_judges (ih (h.enter hd hw)) inline d).congr (by simp [hw])

end Layout

open Layout

/-- The layout of any tree fails with a fault that a walk comes to, if a walk comes to one. -/
theorem Block.judges_records (b : Block) :
    Judges b.records fun e => ∃ t, b.Walks t ∧ t.fault? (Names.ofBlock b) = some e := by
  have hf := expand_faithful (InUse.none (Nat.le_refl (Names.ofBlock b).definitions.length))
  have hs : Judges b.records _ := (statements_judges hf b.statements).map (blockRecords b.desc)
  refine hs.congr fun e => ⟨?_, ?_⟩
  · rintro ⟨s, hs, t, ht, he⟩
    exact ⟨t, ⟨s, hs, ht⟩, he⟩
  · rintro ⟨t, ⟨s, hs, ht⟩, he⟩
    exact ⟨s, hs, t, ht, he⟩

/-- The layout of a tree ends, whatever its definitions are: no bound on their depth matters that is
at least their number.  What has been read can be laid out exactly if no walk over it enters a
definition again or comes to a group that is inline, and fails with an error that blames one of
these. -/
theorem Block.records_walks :
    (∀ (b : Block) (depth : Nat), (Names.ofBlock b).definitions.length ≤ depth →
      b.recordsWithin depth = b.records) ∧
    ∀ (texts : List String) (b : Block), Pattern.ofSources texts = .ok b →
      ((∃ rs, b.records = .ok rs) ↔ ∀ t, b.Walks t → t.fault? (Names.ofBlock b) = none) ∧
      (∀ e, b.records = .error e → ∃ t, b.Walks t ∧ t.fault? (Names.ofBlock b) = some e) ∧
      ∀ t e, b.Walks t → t.fault? (Names.ofBlock b) = some e → t.Blames (Names.ofBlock b) e := by
  refine ⟨fun b depth => b.recordsWithin_eq, fun texts b h => ⟨?_, ?_, ?_⟩⟩
  · have hj := b.judges_records
    cases hr : b.records with
    | ok rs =>
      rw [hr] at hj
      refine ⟨fun _ t ht => Option.eq_none_iff_forall_ne_some.mpr fun e he => hj e ⟨t, ht, he⟩,
        fun _ => ⟨rs, rfl⟩⟩
    | error e =>
      rw [hr] at hj
      obtain ⟨t, ht, he⟩ := hj
      refine ⟨fun ⟨_, hrs⟩ => (by cases hrs), fun hn => ?_⟩
      rw [hn t ht] at he
      cases he
  · intro e he
    have hj := b.judges_records
    rw [he] at hj
    exact hj
  · intro t e ht he
    exact (ht.inGrammar (Pattern.areLines_of_ofSources h)).blames he

/-- A group in a row within a row, as it is read. -/
def Block.inlineGroup : Block :=
  let stitch (p : Position) (s : String) : Expr := .stitch p ⟨p, s⟩ []
  ⟨[.define ⟨⟨1, 1⟩, "g"⟩ (.group ⟨1, 5⟩ ⟨3, 1⟩ [] [.row [stitch ⟨2, 1⟩ "k"] [] .none]) .none,
    .row [stitch ⟨4, 1⟩ "p", .row [stitch ⟨4, 4⟩ "g"] []] [] .none], ⟨1, 1⟩, ⟨5, 0⟩, .none⟩

theorem Block.records_walks_inlineGroup :
    Pattern.ofSources ["g = \x7b\nk\n\x7d\np \x7bg\x7d\n"] = .ok Block.inlineGroup ∧
    Block.inlineGroup.records = .error (.groupInRow "g" ⟨1, 5⟩) ∧
    Block.inlineGroup.recordsWithin 7 = .error (.groupInRow "g" ⟨1, 5⟩) ∧
    ∃ t, Block.inlineGroup.Walks t ∧
      t.Blames (Names.ofBlock Block.inlineGroup) (.groupInRow "g" ⟨1, 5⟩) := by
  have h : Pattern.ofSources ["g = \x7b\nk\n\x7d\np \x7bg\x7d\n"] = .ok Block.inlineGroup := rfl
  have he : Block.inlineGroup.records = .error (.groupInRow "g" ⟨1, 5⟩) := rfl
  obtain ⟨hdepth, hwalks⟩ := Block.records_walks
  obtain ⟨-, herror, hblames⟩ := hwalks _ _ h
  obtain ⟨t, ht, hf⟩ := herror _ he
  exact ⟨h, he, (hdepth _ 7 (by decide)).trans he, t, ht, hblames t _ ht hf⟩

end KnittingPattern
