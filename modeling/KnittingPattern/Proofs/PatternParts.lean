import KnittingPattern.Proofs.NamesGrammar

/-! # What holds everywhere in a pattern

A pattern is made of statements and expressions within each other.  What holds of all of them holds
of every definition that the pattern gives a name to, wherever it stands.  Main theorem:
`Names.everywhere_ofStmts`. -/

namespace KnittingPattern

section

variable (p : Expr → Bool) (q : Stmt → Bool)

mutual

/-- One property holds of all expressions and another of all statements within an expression.
Arguments are left out. -/
def Expr.everywhere : Expr → Bool
  | .ident id => p (.ident id)
  | .size s => p (.size s)
  | .stitch position name args => p (.stitch position name args)
  | .row es args => p (.row es args) && Expr.allEverywhere es
  | .group lbrace rbrace args lines =>
    p (.group lbrace rbrace args lines) && Stmt.allEverywhere lines

def Expr.allEverywhere : List Expr → Bool
  | [] => true
  | e :: es => e.everywhere && Expr.allEverywhere es

/-- The same within a statement. -/
def Stmt.everywhere : Stmt → Bool
  | .synonym lhs rhs desc => q (.synonym lhs rhs desc)
  | .define lhs rhs desc => q (.define lhs rhs desc) && rhs.everywhere
  | .row es args desc => q (.row es args desc) && Expr.allEverywhere es
  | .group lbrace rbrace args lines desc =>
    q (.group lbrace rbrace args lines desc) && Stmt.allEverywhere lines
  | .block ss start stop desc => q (.block ss start stop desc) && Stmt.allEverywhere ss

def Stmt.allEverywhere : List Stmt → Bool
  | [] => true
  | s :: ss => s.everywhere && Stmt.allEverywhere ss

end

end

variable {p : Expr → Bool} {q : Stmt → Bool}

namespace Names

/-- The properties hold within what is defined, and of the definition itself. -/
def Everywhere (p : Expr → Bool) (q : Stmt → Bool) (n : Names) : Prop :=
  ∀ e ∈ n.definitions, e.2.everywhere p q ∧ ∃ lhs desc, lhs.name = e.1 ∧ q (.define lhs e.2 desc)

theorem everywhere_none : none.Everywhere p q := by simp [Everywhere, none]

theorem Everywhere.append {a b : Names} (ha : a.Everywhere p q) (hb : b.Everywhere p q) :
    (a.append b).Everywhere p q :=
  List.forall_mem_append.mpr ⟨ha, hb⟩

mutual

theorem everywhere_ofExpr {e : Expr} (h : e.everywhere p q) : (ofExpr e).Everywhere p q := by
  cases e with
  | row es args =>
    simp only [Expr.everywhere, Bool.and_eq_true] at h
    exact everywhere_ofExprs h.2
  | group lbrace rbrace args lines =>
    simp only [Expr.everywhere, Bool.and_eq_true] at h
    exact everywhere_ofStmts h.2
  | ident id => exact everywhere_none
  | size s => exact everywhere_none
  | stitch position name args => exact everywhere_none

theorem everywhere_ofExprs {es : List Expr} (h : Expr.allEverywhere p q es) :
    (ofExprs es).Everywhere p q := by
  cases es with
  | nil => exact everywhere_none
  | cons e es =>
    simp only [Expr.allEverywhere, Bool.and_eq_true] at h
    exact (everywhere_ofExpr h.1).append (everywhere_ofExprs h.2)

theorem everywhere_ofStmt {s : Stmt} (h : s.everywhere p q) : (ofStmt s).Everywhere p q := by
  cases s with
  | synonym lhs rhs desc => simp [Everywhere, ofStmt]
  | define lhs rhs desc =>
    simp only [Stmt.everywhere, Bool.and_eq_true] at h
    have hd : Everywhere p q ⟨[], [(lhs.name, rhs)]⟩ := by
      simpa [Everywhere] using ⟨h.2, lhs, rfl, desc, h.1⟩
    exact hd.append (everywhere_ofExpr h.2)
  | row es args desc =>
    simp only [Stmt.everywhere, Bool.and_eq_true] at h
    exact everywhere_ofExprs h.2
  | group lbrace rbrace args lines desc =>
    simp only [Stmt.everywhere, Bool.and_eq_true] at h
    exact everywhere_ofStmts h.2
  | block ss start stop desc =>
    simp only [Stmt.everywhere, Bool.and_eq_true] at h
    exact everywhere_ofStmts h.2

theorem everywhere_ofStmts {ss : List Stmt} (h : Stmt.allEverywhere p q ss) :
    (ofStmts ss).Everywhere p q := by
  cases ss with
  | nil => exact everywhere_none
  | cons s ss =>
    simp only [Stmt.allEverywhere, Bool.and_eq_true] at h
    exact (everywhere_ofStmt h.1).append (everywhere_ofStmts h.2)

end

/-- What holds everywhere in a pattern holds everywhere in what a name of it is defined as. -/
theorem Everywhere.of_definition {n : Names} (h : n.Everywhere p q) {name : String} {d : Expr}
    (hd : n.definition? name = some d) : d.everywhere p q :=
  (h _ (mem_definitions hd)).1

end Names
end KnittingPattern
