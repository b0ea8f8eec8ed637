import KnittingPattern.Record.Layout
import KnittingPattern.Proofs.NamesGrammar
import Mathlib.Logic.Basic
import Mathlib.Logic.Relation

/-! # Walks through definitions

A walk goes from a statement of a pattern to the elements of its rows, and from an element that has
a definition on into the definition.  Something is wrong where a walk enters a definition that it is
in, or comes to a group within a row within a row.  Main definitions: `Layout.Site.next`,
`Layout.Site.fault?`, `Block.Walks`. -/

namespace KnittingPattern

namespace Layout

/-- What a walk has come to.  An element is `whole` if it is all that its row statement consists of,
and a definition is if such a name without arguments stands for it. -/
inductive View where
  | statement (s : Stmt)
  | element (inline whole : Bool) (e : Expr)
  | definition (inline whole : Bool) (e : Expr)

/-- Where a walk is, with the definitions that it is in, innermost first. -/
structure Site where
  within : List String
  view : View

namespace Site

/-- The definition of a name, entered. -/
def enter (names : Names) (w : List String) (inline whole : Bool) (id : Identifier) : List Site :=
  match names.definition? id.name with
  | some d => [⟨id.name :: w, .definition inline whole d⟩]
  | none => []

/-- Where a walk goes from a site.  Within a nested row it is inline.  A definition that is a row
without arguments is as inline as its use; one with arguments is inline, unless it is all that a row
statement consists of. -/
def next (names : Names) : Site → List Site
  | ⟨w, .statement (.row es args _)⟩ =>
    es.map fun e => ⟨w, .element false (args.isEmpty && es.length == 1) e⟩
  | ⟨w, .statement (.group _ _ _ lines _)⟩ => lines.map fun s => ⟨w, .statement s⟩
  | ⟨w, .statement (.block ss _ _ _)⟩ => ss.map fun s => ⟨w, .statement s⟩
  | ⟨w, .element inline whole (.ident id)⟩ => enter names w inline whole id
  | ⟨w, .element inline whole (.stitch _ name args)⟩ =>
    enter names w inline (whole && args.isEmpty) name
  | ⟨w, .element _ _ (.row es _)⟩ => es.map fun e => ⟨w, .element true false e⟩
  | ⟨w, .element false _ (.group _ _ _ lines)⟩ => lines.map fun s => ⟨w, .statement s⟩
  | ⟨w, .definition inline whole (.row es args)⟩ =>
    es.map fun e => ⟨w, .element (inline || !(args.isEmpty || whole)) false e⟩
  | ⟨w, .definition inline _ d⟩ => [⟨w, .element inline false d⟩]
  | _ => []

/-- What is wrong at a site: a name that stands alone has no definition, a definition is entered
again, or a group is inline. -/
def fault? (names : Names) : Site → Option LayoutError
  | ⟨w, .element _ _ (.ident id)⟩ =>
    if (names.definition? id.name).isNone then some (.undefined id)
    else if id.name ∈ w then some (.circular id)
    else none
  | ⟨w, .element _ _ (.stitch _ name _)⟩ =>
    if (names.definition? name.name).isSome ∧ name.name ∈ w then some (.circular name) else none
  | ⟨w, .element true _ (.group lbrace _ _ _)⟩ => some (.groupInRow (w.head?.getD "") lbrace)
  | _ => none

/-- A walk goes from one site to another. -/
def Leads (names : Names) : Site → Site → Prop := Relation.ReflTransGen fun s t => t ∈ s.next names

/-- A walk from a site comes to this fault. -/
def Faulty (names : Names) (s : Site) (e : LayoutError) : Prop :=
  ∃ t, s.Leads names t ∧ t.fault? names = some e

/-- A site is faulty if something is wrong there or further on. -/
theorem faulty_iff {names : Names} {s : Site} {e : LayoutError} :
    s.Faulty names e ↔ s.fault? names = some e ∨ ∃ t ∈ s.next names, t.Faulty names e := by
  constructor
  · rintro ⟨t, hst, ht⟩
    rcases Relation.ReflTransGen.cases_head hst with rfl | ⟨u, hsu, hut⟩
    · exact .inl ht
    · exact .inr ⟨u, hsu, t, hut, ht⟩
  · rintro (hs | ⟨u, hsu, t, hut, ht⟩)
    · exact ⟨s, .refl, hs⟩
    · exact ⟨t, .head hsu hut, ht⟩

section

attribute [local simp] next fault?

variable {names : Names} {w : List String} {inline whole : Bool} {e : LayoutError}
  {es args : List Expr} {lines : List Stmt} {lbrace rbrace : Position} {desc : Description}

@[simp] theorem faulty_row :
    Faulty names ⟨w, .statement (.row es args desc)⟩ e ↔
      ∃ x ∈ es, Faulty names ⟨w, .element false (args.isEmpty && es.length == 1) x⟩ e := by
  rw [faulty_iff]
  simp

@[simp] theorem faulty_group :
    Faulty names ⟨w, .statement (.group lbrace rbrace args lines desc)⟩ e ↔
      ∃ s ∈ lines, Faulty names ⟨w, .statement s⟩ e := by
  rw [faulty_iff]
  simp

@[simp] theorem faulty_block {start stop : Position} :
    Faulty names ⟨w, .statement (.block lines start stop desc)⟩ e ↔
      ∃ s ∈ lines, Faulty names ⟨w, .statement s⟩ e := by
  rw [faulty_iff]
  simp

@[simp] theorem not_faulty_synonym {lhs rhs : Identifier} :
    ¬ Faulty names ⟨w, .statement (.synonym lhs rhs desc)⟩ e := by
  rw [faulty_iff]
  simp

@[simp] theorem not_faulty_define {lhs : Identifier} {rhs : Expr} :
    ¬ Faulty names ⟨w, .statement (.define lhs rhs desc)⟩ e := by
  rw [faulty_iff]
  simp

@[simp] theorem not_faulty_size {s : Size} :
    ¬ Faulty names ⟨w, .element inline whole (.size s)⟩ e := by
  rw [faulty_iff]
  simp

@[simp] theorem faulty_nested :
    Faulty names ⟨w, .element inline whole (.row es args)⟩ e ↔
      ∃ x ∈ es, Faulty names ⟨w, .element true false x⟩ e := by
  rw [faulty_iff]
  simp

theorem faulty_inlineGroup :
    Faulty names ⟨w, .element true whole (.group lbrace rbrace args lines)⟩ e ↔
      e = .groupInRow (w.head?.getD "") lbrace := by
  rw [faulty_iff]
  simp [eq_comm]

theorem faulty_lines :
    Faulty names ⟨w, .element false whole (.group lbrace rbrace args lines)⟩ e ↔
      ∃ s ∈ lines, Faulty names ⟨w, .statement s⟩ e := by
  rw [faulty_iff]
  simp

/-- A name that stands alone needs a definition. -/
theorem faulty_undefined {id : Identifier} (hd : names.definition? id.name = none) :
    Faulty names ⟨w, .element inline whole (.ident id)⟩ e ↔ e = .undefined id := by
  rw [faulty_iff]
  simp [enter, hd, eq_comm]

/-- Without a definition, a stitch is never faulty. -/
theorem not_faulty_stitch {position : Position} {name : Identifier}
    (hd : names.definition? name.name = none) :
    ¬ Faulty names ⟨w, .element inline whole (.stitch position name args)⟩ e := by
  rw [faulty_iff]
  simp [enter, hd]

/-- The use of a definition is faulty if it is in that definition, or if the definition is. -/
theorem faulty_ident {id : Identifier} {d : Expr} (hd : names.definition? id.name = some d) :
    Faulty names ⟨w, .element inline whole (.ident id)⟩ e ↔
      id.name ∈ w ∧ e = .circular id ∨
        Faulty names ⟨id.name :: w, .definition inline whole d⟩ e := by
  rw [faulty_iff]
  simp [enter, hd, eq_comm]

theorem faulty_stitch {position : Position} {name : Identifier} {d : Expr}
    (hd : names.definition? name.name = some d) :
    Faulty names ⟨w, .element inline whole (.stitch position name args)⟩ e ↔
      name.name ∈ w ∧ e = .circular name ∨
        Faulty names ⟨name.name :: w, .definition inline (whole && args.isEmpty) d⟩ e := by
  rw [faulty_iff]
  simp [enter, hd, eq_comm]

@[simp] theorem faulty_definedRow :
    Faulty names ⟨w, .definition inline whole (.row es args)⟩ e ↔
      ∃ x ∈ es, Faulty names ⟨w, .element (inline || !(args.isEmpty || whole)) false x⟩ e := by
  rw [faulty_iff]
  simp

theorem faulty_defined {d : Expr} (hd : ∀ es args, d ≠ .row es args) :
    Faulty names ⟨w, .definition inline whole d⟩ e ↔
      Faulty names ⟨w, .element inline false d⟩ e := by
  rw [faulty_iff]
  cases d with
  | row es args => exact absurd rfl (hd es args)
  | _ => simp

end

end Site

/-- A walk has just entered a definition of the grammar. -/
def Entered (names : Names) (w : List String) (d : Expr) : Prop :=
  d.isDefinition true ∧ ∃ name outer, w = name :: outer ∧ names.definition? name = some d

/-- What stands at a site is in the grammar; a group that is an element is a definition. -/
def Site.InGrammar (names : Names) : Site → Prop
  | ⟨_, .statement s⟩ => s.isLine true
  | ⟨w, .element _ _ e⟩ => e.isElement true ∨ Entered names w e
  | ⟨w, .definition _ _ d⟩ => Entered names w d

namespace Site.InGrammar

variable {names : Names} {w : List String}

theorem element_of_mem {es : List Expr} (h : Expr.areElements true es) {inline whole : Bool} :
    ∀ t ∈ es.map (fun e => (⟨w, .element inline whole e⟩ : Site)), t.InGrammar names := by
  rw [Expr.areElements_eq_all, List.all_eq_true] at h
  intro t ht
  obtain ⟨e, he, rfl⟩ := List.mem_map.mp ht
  exact .inl (h e he)

theorem statement_of_mem {ss : List Stmt} (h : Stmt.areLines true ss) :
    ∀ t ∈ ss.map (fun s => (⟨w, .statement s⟩ : Site)), t.InGrammar names := by
  rw [Stmt.areLines_eq_all, List.all_eq_true] at h
  intro t ht
  obtain ⟨s, hs, rfl⟩ := List.mem_map.mp ht
  exact h s hs

theorem enter (hn : names.InGrammar) {inline whole : Bool} {id : Identifier} :
    ∀ t ∈ Site.enter names w inline whole id, t.InGrammar names := by
  intro t ht
  unfold Site.enter at ht
  split at ht
  · rename_i d hd
    cases List.mem_singleton.mp ht
    exact ⟨hn.isDefinition hd, id.name, w, rfl, hd⟩
  · cases ht

theorem of_definition {d : Expr} (hd : d.isDefinition true) :
    (∃ es args, d = .row es args ∧ Expr.areElements true es) ∨
      ∃ lbrace rbrace args lines, d = .group lbrace rbrace args lines ∧
        Stmt.areLines true lines := by
  cases d with
  | row es args =>
    simp only [Expr.isDefinition, Bool.and_eq_true] at hd
    exact .inl ⟨es, args, rfl, hd.1.2⟩
  | group lbrace rbrace args lines =>
    simp only [Expr.isDefinition, Bool.and_eq_true] at hd
    exact .inr ⟨lbrace, rbrace, args, lines, rfl, hd.1⟩
  | ident id => cases hd
  | size s => cases hd
  | stitch position name args => cases hd

/-- Walks stay in the grammar. -/
theorem next (hn : names.InGrammar) {s : Site} (hs : s.InGrammar names) :
    ∀ t ∈ s.next names, t.InGrammar names := by
  obtain ⟨w, s | ⟨inline, whole, e⟩ | ⟨inline, whole, d⟩⟩ := s
  · cases s with
    | synonym lhs rhs desc => simp [Site.next]
    | define lhs rhs desc => simp [Site.next]
    | row es args desc =>
      simp only [Site.InGrammar, Stmt.isLine, Bool.and_eq_true] at hs
      exact element_of_mem hs.1
    | group lbrace rbrace args lines desc =>
      simp only [Site.InGrammar, Stmt.isLine, Bool.and_eq_true] at hs
      exact statement_of_mem hs.1
    | block ss start stop desc => cases hs
  · rcases hs with hs | hs
    · cases e with
      | stitch position name args => exact enter hn
      | row es args =>
        simp only [Expr.isElement, Bool.and_eq_true] at hs
        exact element_of_mem hs.1
      | ident id => cases hs
      | size s => cases hs
      | group lbrace rbrace args lines => cases hs
    · obtain ⟨es, args, rfl, hes⟩ | ⟨lbrace, rbrace, args, lines, rfl, hl⟩ := of_definition hs.1
      · exact element_of_mem hes
      · cases inline with
        | true => simp [Site.next]
        | false => exact statement_of_mem hl
  · obtain ⟨es, args, rfl, hes⟩ | ⟨lbrace, rbrace, args, lines, rfl, hl⟩ := of_definition hs.1
    · exact element_of_mem hes
    · intro t ht
      cases List.mem_singleton.mp ht
      exact .inr hs

theorem leads (hn : names.InGrammar) {s t : Site} (hs : s.InGrammar names)
    (h : s.Leads names t) : t.InGrammar names := by
  induction h with
  | refl => exact hs
  | tail _ ht ih => exact ih.next hn _ ht

end Site.InGrammar

/-- An error that names a definition which is entered again, or one that is a group. -/
def Site.Blames (names : Names) (t : Site) (e : LayoutError) : Prop :=
  (∃ id, e = .circular id ∧ id.name ∈ t.within) ∨
    ∃ name lbrace rbrace args lines, e = .groupInRow name lbrace ∧
      names.definition? name = some (.group lbrace rbrace args lines)

/-- In the grammar no name stands alone, and no group is an element but as a definition. -/
theorem Site.InGrammar.blames {names : Names} {t : Site} (ht : t.InGrammar names)
    {e : LayoutError} (h : t.fault? names = some e) : t.Blames names e := by
  obtain ⟨w, s | ⟨inline, whole, x⟩ | ⟨inline, whole, d⟩⟩ := t
  · simp [Site.fault?] at h
  · rcases ht with ht | ⟨hd, name, outer, rfl, hname⟩
    · cases x with
      | stitch position name args =>
        simp only [Site.fault?, Option.ite_none_right_eq_some] at h
        obtain ⟨⟨-, hw⟩, ⟨⟩⟩ := h
        exact .inl ⟨name, rfl, hw⟩
      | row es args => simp [Site.fault?] at h
      | ident id => cases ht
      | size s => cases ht
      | group lbrace rbrace args lines => cases ht
    · cases x with
      | group lbrace rbrace args lines =>
        cases inline with
        | true =>
          cases h
          exact .inr ⟨name, lbrace, rbrace, args, lines, rfl, hname⟩
        | false => simp [Site.fault?] at h
      | row es args => simp [Site.fault?] at h
      | ident id => cases hd
      | size s => cases hd
      | stitch position name args => cases hd
  · simp [Site.fault?] at h

end Layout

open Layout

/-- A walk over the pattern comes to a site. -/
def Block.Walks (b : Block) (t : Site) : Prop :=
  ∃ s ∈ b.statements, Site.Leads (Names.ofBlock b) ⟨[], .statement s⟩ t

theorem Block.Walks.inGrammar {b : Block} {t : Site} (ht : b.Walks t)
    (hb : Stmt.areLines true b.statements) : t.InGrammar (Names.ofBlock b) := by
  obtain ⟨s, hs, ht⟩ := ht
  rw [Stmt.areLines_eq_all, List.all_eq_true] at hb
  exact Site.InGrammar.leads (Names.inGrammar_ofBlock (by simpa using hb))
    (s := ⟨[], .statement s⟩) (hb s hs) ht

end KnittingPattern
