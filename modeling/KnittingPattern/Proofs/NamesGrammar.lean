import KnittingPattern.Pattern.Names
import KnittingPattern.Proofs.PatternGrammar

/-! # Names in the grammar

In a pattern of the grammar a synonym stands for a word, and a definition for a row or a group of
the grammar, wherever in the pattern it stands.  Main theorem: `Names.inGrammar_ofBlock`. -/

namespace KnittingPattern

namespace Names

theorem mem_of_last? {α : Type} {name : String} {entries : List (String × α)} {a : α}
    (h : last? name entries = some a) : (name, a) ∈ entries := by
  obtain ⟨⟨key, b⟩, hp, rfl⟩ := Option.map_eq_some_iff.mp h
  have hname : key = name := by simpa using List.find?_some hp
  subst hname
  exact List.mem_reverse.mp (List.mem_of_find?_eq_some hp)

/-- What a name is defined as is one of the definitions. -/
theorem mem_definitions {n : Names} {name : String} {e : Expr} (h : n.definition? name = some e) :
    (name, e) ∈ n.definitions :=
  mem_of_last? h

/-- Synonyms stand for words, definitions for rows and groups of the grammar. -/
structure InGrammar (n : Names) : Prop where
  synonyms : ∀ p ∈ n.synonyms, isWord p.2.name
  definitions : ∀ p ∈ n.definitions, p.2.isDefinition true

namespace InGrammar

variable {n : Names} {name : String}

/-- What a name is defined as is a row or a group of the grammar. -/
theorem isDefinition (hn : n.InGrammar) {d : Expr} (hd : n.definition? name = some d) :
    d.isDefinition true :=
  hn.definitions _ (mem_definitions hd)

/-- A row that a name is defined as, without its arguments. -/
theorem isDefinition_row (hn : n.InGrammar) {es args : List Expr}
    (hd : n.definition? name = some (.row es args)) : (Expr.row es []).isDefinition true := by
  have h := hn.isDefinition hd
  simp only [Expr.isDefinition, Bool.and_eq_true] at h
  simpa [Expr.isDefinition] using h.1

end InGrammar

theorem inGrammar_none : none.InGrammar := ⟨by simp [none], by simp [none]⟩

theorem InGrammar.append {a b : Names} (ha : a.InGrammar) (hb : b.InGrammar) :
    (a.append b).InGrammar :=
  ⟨List.forall_mem_append.mpr ⟨ha.synonyms, hb.synonyms⟩,
    List.forall_mem_append.mpr ⟨ha.definitions, hb.definitions⟩⟩

mutual

theorem inGrammar_ofElement {e : Expr} (h : e.isElement true) : (ofExpr e).InGrammar := by
  cases e with
  | stitch position name args => exact inGrammar_none
  | row es args =>
    simp only [Expr.isElement, Bool.and_eq_true] at h
    exact inGrammar_ofElements h.1
  | ident id => cases h
  | size s => cases h
  | group lbrace rbrace args lines => cases h

theorem inGrammar_ofElements {es : List Expr} (h : Expr.areElements true es) :
    (ofExprs es).InGrammar := by
  cases es with
  | nil => exact inGrammar_none
  | cons e es =>
    simp only [Expr.areElements, Bool.and_eq_true] at h
    exact (inGrammar_ofElement h.1).append (inGrammar_ofElements h.2)

end

mutual

theorem inGrammar_ofDefinition {e : Expr} (h : e.isDefinition true) : (ofExpr e).InGrammar := by
  cases e with
  | row es args =>
    simp only [Expr.isDefinition, Bool.and_eq_true] at h
    exact inGrammar_ofElements h.1.2
  | group lbrace rbrace args lines =>
    simp only [Expr.isDefinition, Bool.and_eq_true] at h
    exact inGrammar_ofStmts h.1
  | ident id => cases h
  | size s => cases h
  | stitch position name args => cases h

theorem inGrammar_ofStmt {s : Stmt} (h : s.isLine true) : (ofStmt s).InGrammar := by
  cases s with
  | synonym lhs rhs desc =>
    simp only [Stmt.isLine, Bool.and_eq_true] at h
    exact ⟨by simpa [ofStmt] using h.2, by simp [ofStmt]⟩
  | define lhs rhs desc =>
    simp only [Stmt.isLine, Bool.and_eq_true] at h
    have hd : InGrammar ⟨[], [(lhs.name, rhs)]⟩ := ⟨by simp, by simpa using h.2⟩
    exact hd.append (inGrammar_ofDefinition h.2)
  | row es args desc =>
    simp only [Stmt.isLine, Bool.and_eq_true] at h
    exact inGrammar_ofElements h.1
  | group lbrace rbrace args lines desc =>
    simp only [Stmt.isLine, Bool.and_eq_true] at h
    exact inGrammar_ofStmts h.1
  | block ss start stop desc => cases h

theorem inGrammar_ofStmts {ss : List Stmt} (h : Stmt.areLines true ss) :
    (ofStmts ss).InGrammar := by
  cases ss with
  | nil => exact inGrammar_none
  | cons s ss =>
    simp only [Stmt.areLines, Bool.and_eq_true] at h
    exact (inGrammar_ofStmt h.1).append (inGrammar_ofStmts h.2)

end

/-- The names of a pattern whose statements are lines. -/
theorem inGrammar_ofBlock {b : Block} (h : Stmt.areLines true b.statements) :
    (ofBlock b).InGrammar :=
  inGrammar_ofStmts h

end Names
end KnittingPattern
