import KnittingPattern.Proofs.PatternParts

/-! # A new name in a pattern

A row or a group of a pattern gets a name: in its place stand a definition of the name and a row that
is the name.  The other names stand for what they stood for, but for definitions that the statement
stands in, and the new one stands for the statement.  Main theorems: `Names.agree_ofStmts`,
`Names.definition?_ofStmts`. -/

namespace KnittingPattern

/-- What a row or a group statement knits. -/
def Stmt.knitted? : Stmt → Option Expr
  | .row es args _ => some (.row es args)
  | .group lbrace rbrace args lines _ => some (.group lbrace rbrace args lines)
  | _ => none

/-- A statement among others gets a name: in its place are a definition of the name and a row that is
the name.  The owner is the definition that the statement stands in, if any, the innermost one. -/
inductive Stmt.Named (name : String) (s : Stmt) : Option String → List Stmt → List Stmt → Prop
  | here {d : Expr} {given use place : Position} {desc : Description} {ss : List Stmt}
    (hd : s.knitted? = some d) :
    Named name s none (s :: ss)
      (.define ⟨given, name⟩ d desc :: .row [.stitch place ⟨use, name⟩ []] [] .none :: ss)
  | group {owner : Option String} {lbrace rbrace : Position} {args : List Expr}
    {lines lines' ss : List Stmt} {desc : Description} (h : Named name s owner lines lines') :
    Named name s owner (.group lbrace rbrace args lines desc :: ss)
      (.group lbrace rbrace args lines' desc :: ss)
  | define {owner : Option String} {lhs : Identifier} {lbrace rbrace : Position} {args : List Expr}
    {lines lines' ss : List Stmt} {desc : Description} (h : Named name s owner lines lines') :
    Named name s (some (owner.getD lhs.name))
      (.define lhs (.group lbrace rbrace args lines) desc :: ss)
      (.define lhs (.group lbrace rbrace args lines') desc :: ss)
  | block {owner : Option String} {start stop : Position} {lines lines' ss : List Stmt}
    {desc : Description} (h : Named name s owner lines lines') :
    Named name s owner (.block lines start stop desc :: ss) (.block lines' start stop desc :: ss)
  | later {owner : Option String} {t : Stmt} {ss ss' : List Stmt} (h : Named name s owner ss ss') :
    Named name s owner (t :: ss) (t :: ss')

theorem Stmt.Named.everywhere {name : String} {s : Stmt} {owner : Option String} {ss ss' : List Stmt}
    (h : Named name s owner ss ss') {p : Expr → Bool} {q : Stmt → Bool}
    (hs : Stmt.allEverywhere p q ss) : s.everywhere p q := by
  induction h with
  | here hd =>
    simp only [Stmt.allEverywhere, Bool.and_eq_true] at hs
    exact hs.1
  | group h ih =>
    simp only [Stmt.allEverywhere, Stmt.everywhere, Bool.and_eq_true] at hs
    exact ih hs.1.2
  | define h ih =>
    simp only [Stmt.allEverywhere, Stmt.everywhere, Expr.everywhere, Bool.and_eq_true] at hs
    exact ih hs.1.2.2
  | block h ih =>
    simp only [Stmt.allEverywhere, Stmt.everywhere, Bool.and_eq_true] at hs
    exact ih hs.1.2
  | later h ih =>
    simp only [Stmt.allEverywhere, Bool.and_eq_true] at hs
    exact ih hs.2

/-- What is defined as `y` before and after a statement gets a name: it is the same, or it has the
statement within. -/
inductive Expr.Named (name : String) (s : Stmt) (owner : Option String) (y : String) :
    Expr → Expr → Prop
  | same (e : Expr) : Named name s owner y e e
  | group {o : Option String} {lbrace rbrace : Position} {args : List Expr}
    {lines lines' : List Stmt} (h : Stmt.Named name s o lines lines')
    (ho : owner = some (o.getD y)) :
    Named name s owner y (.group lbrace rbrace args lines) (.group lbrace rbrace args lines')

/-- A name is not used. -/
def Expr.spares (name : String) : Expr → Bool
  | .ident id => id.name != name
  | .stitch _ id _ => id.name != name
  | _ => true

/-- A name is not defined. -/
def Stmt.spares (name : String) : Stmt → Bool
  | .define lhs _ _ => lhs.name != name
  | _ => true

/-- Nothing within the expression uses or defines the name. -/
abbrev Expr.Spares (name : String) (e : Expr) : Prop :=
  e.everywhere (Expr.spares name) (Stmt.spares name)

abbrev Expr.AllSpare (name : String) (es : List Expr) : Prop :=
  Expr.allEverywhere (Expr.spares name) (Stmt.spares name) es

abbrev Stmt.Spares (name : String) (s : Stmt) : Prop :=
  s.everywhere (Expr.spares name) (Stmt.spares name)

abbrev Stmt.AllSpare (name : String) (ss : List Stmt) : Prop :=
  Stmt.allEverywhere (Expr.spares name) (Stmt.spares name) ss

abbrev Names.Spares (name : String) (n : Names) : Prop :=
  n.Everywhere (Expr.spares name) (Stmt.spares name)

variable {name : String} {s : Stmt} {owner : Option String}

section

variable {position lbrace rbrace : Position} {id : Identifier} {e : Expr} {es args : List Expr}
  {ss : List Stmt} {desc : Description}

theorem Expr.spares_ident : Expr.Spares name (.ident id) ↔ id.name ≠ name := by
  simp [Expr.Spares, Expr.everywhere, Expr.spares]

theorem Expr.spares_stitch : Expr.Spares name (.stitch position id args) ↔ id.name ≠ name := by
  simp [Expr.Spares, Expr.everywhere, Expr.spares]

theorem Expr.spares_row : Expr.Spares name (.row es args) ↔ Expr.AllSpare name es := by
  simp [Expr.Spares, Expr.everywhere, Expr.spares]

theorem Expr.spares_group :
    Expr.Spares name (.group lbrace rbrace args ss) ↔ Stmt.AllSpare name ss := by
  simp [Expr.Spares, Expr.everywhere, Expr.spares]

theorem Expr.allSpare_cons :
    Expr.AllSpare name (e :: es) ↔ e.Spares name ∧ Expr.AllSpare name es := by
  simp [Expr.AllSpare, Expr.allEverywhere]

theorem Stmt.spares_define :
    Stmt.Spares name (.define id e desc) ↔ id.name ≠ name ∧ e.Spares name := by
  simp [Stmt.Spares, Stmt.everywhere, Stmt.spares]

theorem Stmt.spares_row : Stmt.Spares name (.row es args desc) ↔ Expr.AllSpare name es := by
  simp [Stmt.Spares, Stmt.everywhere, Stmt.spares]

theorem Stmt.spares_group :
    Stmt.Spares name (.group lbrace rbrace args ss desc) ↔ Stmt.AllSpare name ss := by
  simp [Stmt.Spares, Stmt.everywhere, Stmt.spares]

theorem Stmt.spares_block :
    Stmt.Spares name (.block ss lbrace rbrace desc) ↔ Stmt.AllSpare name ss := by
  simp [Stmt.Spares, Stmt.everywhere, Stmt.spares]

theorem Stmt.allSpare_cons :
    Stmt.AllSpare name (s :: ss) ↔ s.Spares name ∧ Stmt.AllSpare name ss := by
  simp [Stmt.AllSpare, Stmt.allEverywhere]

end

namespace Names

theorem last?_append {α : Type} (name : String) (as bs : List (String × α)) :
    last? name (as ++ bs) = (last? name bs).or (last? name as) := by
  simp [last?, List.find?_append, Option.map_or]

theorem definition?_append (a b : Names) (name : String) :
    (a.append b).definition? name = (b.definition? name).or (a.definition? name) :=
  last?_append name a.definitions b.definitions

theorem definition?_eq_none {n : Names} (h : n.Spares name) : n.definition? name = Option.none := by
  refine Option.eq_none_iff_forall_ne_some.mpr fun d hd => ?_
  obtain ⟨-, lhs, desc, hl, hq⟩ := h _ (mem_definitions hd)
  simp [Stmt.spares, hl] at hq

/-- Names before and after a statement gets a name, but for the name itself. -/
structure Agree (name : String) (s : Stmt) (owner : Option String) (n n' : Names) : Prop where
  synonyms : n.synonyms = n'.synonyms
  definitions : ∀ y, y ≠ name →
    Option.Rel (Expr.Named name s owner y) (n.definition? y) (n'.definition? y)

theorem rel_or {α β : Type} {r : α → β → Prop} {a b : Option α} {a' b' : Option β}
    (ha : Option.Rel r a a') (hb : Option.Rel r b b') : Option.Rel r (b.or a) (b'.or a') := by
  cases hb with
  | none => exact ha
  | some h => exact .some h

namespace Agree

theorem of_eq {n n' : Names} (hs : n.synonyms = n'.synonyms)
    (hd : ∀ y, y ≠ name → n.definition? y = n'.definition? y) : Agree name s owner n n' where
  synonyms := hs
  definitions y hy := by
    rw [hd y hy]
    cases n'.definition? y with
    | none => exact .none
    | some e => exact .some (.same e)

theorem refl (n : Names) : Agree name s owner n n := .of_eq rfl fun _ _ => rfl

theorem append {a a' b b' : Names} (ha : Agree name s owner a a') (hb : Agree name s owner b b') :
    Agree name s owner (a.append b) (a'.append b') where
  synonyms := by simp only [Names.append, ha.synonyms, hb.synonyms]
  definitions y hy := by
    rw [definition?_append, definition?_append]
    exact rel_or (ha.definitions y hy) (hb.definitions y hy)

theorem cases {n n' : Names} (h : Agree name s owner n n') {y : String} (hy : y ≠ name) :
    (n.definition? y = Option.none ∧ n'.definition? y = Option.none) ∨
      ∃ d d', n.definition? y = some d ∧ n'.definition? y = some d' ∧
        Expr.Named name s owner y d d' := by
  have hr := h.definitions y hy
  generalize n.definition? y = d at hr ⊢
  generalize n'.definition? y = d' at hr ⊢
  cases hr with
  | none => exact .inl ⟨rfl, rfl⟩
  | some hd => exact .inr ⟨_, _, rfl, rfl, hd⟩

theorem isSome {n n' : Names} (h : Agree name s owner n n') {y : String} (hy : y ≠ name)
    (hd : (n.definition? y).isSome) : (n'.definition? y).isSome := by
  obtain ⟨hn, -⟩ | ⟨d, d', -, hn', -⟩ := h.cases hy
  · simp [hn] at hd
  · simp [hn']

/-- Within a definition, the owner is the one among its statements, if there is one, and else the
definition itself. -/
theorem within {o : Option String} {n n' : Names} (h : Agree name s o n n') (y : String) :
    Agree name s (some (o.getD y)) n n' where
  synonyms := h.synonyms
  definitions z hz := by
    obtain ⟨hn, hn'⟩ | ⟨d, d', hn, hn', hd⟩ := h.cases hz
    · rw [hn, hn']
      exact .none
    · rw [hn, hn']
      cases hd with
      | same => exact .some (.same _)
      | group hlines ho => exact .some (.group hlines (by rw [ho]; rfl))

theorem singleton {o : Option String} {y : String} {lbrace rbrace : Position} {args : List Expr}
    {lines lines' : List Stmt} (h : Stmt.Named name s o lines lines') :
    Agree name s (some (o.getD y)) ⟨[], [(y, .group lbrace rbrace args lines)]⟩
      ⟨[], [(y, .group lbrace rbrace args lines')]⟩ where
  synonyms := rfl
  definitions z hz := by
    by_cases hyz : y = z
    · subst hyz
      simpa [definition?, last?] using Expr.Named.group h rfl
    · simp [definition?, last?, hyz]

end Agree

theorem ofStmt_of_knitted? {d : Expr} (hd : s.knitted? = some d) : ofStmt s = ofExpr d := by
  unfold Stmt.knitted? at hd
  split at hd <;> cases hd <;> simp [ofStmt, ofExpr]

theorem definition?_define_of_ne {y : String} (hy : y ≠ name) (given : Position) (d : Expr)
    (desc : Description) :
    (ofStmt (.define ⟨given, name⟩ d desc)).definition? y = (ofExpr d).definition? y := by
  have hname : (⟨[], [(name, d)]⟩ : Names).definition? y = Option.none := by
    simp [definition?, last?, hy.symm]
  rw [ofStmt, definition?_append, hname, Option.or_none]

/-- The names of a pattern in which a statement gets a name. -/
theorem agree_ofStmts {ss ss' : List Stmt} (h : Stmt.Named name s owner ss ss') :
    Agree name s owner (ofStmts ss) (ofStmts ss') := by
  induction h with
  | here hd =>
    have hs := ofStmt_of_knitted? hd
    exact (Agree.of_eq (by rw [hs]; rfl) fun y hy => by rw [hs, definition?_define_of_ne hy]).append
      (.of_eq rfl fun _ _ => rfl)
  | group h ih => exact ih.append (.refl _)
  | define h ih => exact ((Agree.singleton h).append (ih.within _)).append (.refl _)
  | block h ih => exact ih.append (.refl _)
  | later h ih => exact (Agree.refl _).append ih

theorem definition?_cons (t : Stmt) {ss : List Stmt}
    (hf : Stmt.AllSpare name ss) :
    (ofStmts (t :: ss)).definition? name = (ofStmt t).definition? name := by
  have hss : (ofStmts ss).definition? name = Option.none :=
    definition?_eq_none (everywhere_ofStmts hf)
  rw [ofStmts, definition?_append, hss, Option.none_or]

/-- The new name stands for what the statement knits. -/
theorem definition?_ofStmts {ss ss' : List Stmt} (h : Stmt.Named name s owner ss ss')
    (hf : Stmt.AllSpare name ss) :
    ∃ d, s.knitted? = some d ∧ (ofStmts ss').definition? name = some d := by
  induction h with
  | @here d given use place desc ss hd =>
    rw [Stmt.allSpare_cons] at hf
    have hs : (ofExpr d).definition? name = Option.none := by
      rw [← ofStmt_of_knitted? hd]
      exact definition?_eq_none (everywhere_ofStmt hf.1)
    have hrest : (ofStmts (.row [.stitch place ⟨use, name⟩ []] [] .none :: ss)).definition? name =
        Option.none := definition?_cons _ hf.2
    refine ⟨d, hd, ?_⟩
    rw [ofStmts, definition?_append, hrest, ofStmt, definition?_append, hs]
    simp [definition?, last?]
  | group h ih =>
    rw [Stmt.allSpare_cons, Stmt.spares_group] at hf
    obtain ⟨d, hd, hn⟩ := ih hf.1
    exact ⟨d, hd, (definition?_cons _ hf.2).trans hn⟩
  | define h ih =>
    rw [Stmt.allSpare_cons, Stmt.spares_define, Expr.spares_group] at hf
    obtain ⟨d, hd, hn⟩ := ih hf.1.2
    refine ⟨d, hd, (definition?_cons _ hf.2).trans ?_⟩
    rw [ofStmt, definition?_append, ofExpr, hn, Option.some_or]
  | block h ih =>
    rw [Stmt.allSpare_cons, Stmt.spares_block] at hf
    obtain ⟨d, hd, hn⟩ := ih hf.1
    exact ⟨d, hd, (definition?_cons _ hf.2).trans hn⟩
  | later h ih =>
    rw [Stmt.allSpare_cons] at hf
    obtain ⟨d, hd, hn⟩ := ih hf.2
    exact ⟨d, hd, by rw [ofStmts, definition?_append, hn, Option.some_or]⟩

end Names

end KnittingPattern
