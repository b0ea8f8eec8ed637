import KnittingPattern.Pattern.Reader
import KnittingPattern.Proofs.DescriptionSources
import KnittingPattern.Proofs.NewNames
import KnittingPattern.Proofs.RelabelledLayout

/-! # The order of definitions

A name stands for what the last statement about it says, in the order in which statements are
written, those within groups and definitions included.  Where a definition stands makes no other
difference: statements in another order have the same records as long as those that are knitted keep
their order and the last statement about every name says the same.  Main theorem:
`Block.records_reordered`. -/

namespace KnittingPattern

namespace Stmt

/-- The entry that a synonym makes. -/
def synonymEntry? : Stmt → Option (String × Identifier)
  | synonym lhs rhs _ => some (lhs.name, rhs)
  | _ => none

/-- The entry that a definition makes. -/
def definitionEntry? : Stmt → Option (String × Expr)
  | define lhs rhs _ => some (lhs.name, rhs)
  | _ => none

/-- What the statement makes the name a synonym of. -/
def synonymOf? (name : String) : Stmt → Option Identifier
  | synonym lhs rhs _ => if lhs.name = name then some rhs else none
  | _ => none

/-- What the statement defines the name as. -/
def definitionOf? (name : String) : Stmt → Option Expr
  | define lhs rhs _ => if lhs.name = name then some rhs else none
  | _ => none

/-- What the last synonym of the name is a synonym of. -/
def lastSynonym? (name : String) (ss : List Stmt) : Option Identifier :=
  ((allStatements ss).filterMap (synonymOf? name)).getLast?

/-- What the last definition of the name defines it as. -/
def lastDefinition? (name : String) (ss : List Stmt) : Option Expr :=
  ((allStatements ss).filterMap (definitionOf? name)).getLast?

/-- The statement is neither a synonym nor a definition. -/
def isKnitted : Stmt → Bool
  | synonym _ _ _ | define _ _ _ => false
  | row _ _ _ | group _ _ _ _ _ | block _ _ _ _ => true

theorem allStatements_eq_flatMap (ss : List Stmt) : allStatements ss = ss.flatMap statements := by
  induction ss with
  | nil => rfl
  | cons s ss ih => simp [allStatements, ih]

end Stmt

namespace Names

/-- The entries that statements make, in their order. -/
def ofEntries (ss : List Stmt) : Names :=
  ⟨ss.filterMap Stmt.synonymEntry?, ss.filterMap Stmt.definitionEntry?⟩

theorem ofEntries_append (ss ts : List Stmt) :
    ofEntries (ss ++ ts) = (ofEntries ss).append (ofEntries ts) := by
  simp [ofEntries, append]

theorem ofEntries_cons_of_isKnitted {s : Stmt} (h : s.isKnitted) (ss : List Stmt) :
    ofEntries (s :: ss) = ofEntries ss := by
  cases s <;> first | rfl | cases h

mutual

theorem ofExpr_eq_ofEntries (e : Expr) : ofExpr e = ofEntries e.statements := by
  cases e with
  | row es args => exact ofExprs_eq_ofEntries es
  | group lbrace rbrace args lines => exact ofStmts_eq_ofEntries lines
  | ident id => rfl
  | size s => rfl
  | stitch position name args => rfl

theorem ofExprs_eq_ofEntries (es : List Expr) : ofExprs es = ofEntries (Expr.allStatements es) := by
  cases es with
  | nil => rfl
  | cons e es =>
    rw [ofExprs, Expr.allStatements, ofEntries_append, ofExpr_eq_ofEntries e,
      ofExprs_eq_ofEntries es]

theorem ofStmt_eq_ofEntries (s : Stmt) : ofStmt s = ofEntries s.statements := by
  cases s with
  | synonym lhs rhs desc => rfl
  | define lhs rhs desc =>
    rw [ofStmt, ofExpr_eq_ofEntries rhs]
    rfl
  | row es args desc =>
    rw [Stmt.statements, ofEntries_cons_of_isKnitted rfl]
    exact ofExprs_eq_ofEntries es
  | group lbrace rbrace args lines desc =>
    rw [Stmt.statements, ofEntries_cons_of_isKnitted rfl]
    exact ofStmts_eq_ofEntries lines
  | block ss start stop desc =>
    rw [Stmt.statements, ofEntries_cons_of_isKnitted rfl]
    exact ofStmts_eq_ofEntries ss

/-- The names of a pattern are the entries of all its statements. -/
theorem ofStmts_eq_ofEntries (ss : List Stmt) :
    ofStmts ss = ofEntries (Stmt.allStatements ss) := by
  cases ss with
  | nil => rfl
  | cons s ss =>
    rw [ofStmts, Stmt.allStatements, ofEntries_append, ofStmt_eq_ofEntries s,
      ofStmts_eq_ofEntries ss]

end

/-- The last entry of a name is the last of those that are of this name. -/
theorem last?_filterMap {α : Type} (name : String) (made? : Stmt → Option (String × α))
    (ss : List Stmt) : last? name (ss.filterMap made?) =
      (ss.filterMap fun s => (made? s).bind fun e =>
        if e.1 = name then some e.2 else Option.none).getLast? := by
  induction ss with
  | nil => rfl
  | cons s ss ih =>
    rw [← List.singleton_append, List.filterMap_append, last?_append, ih, List.filterMap_append,
      List.getLast?_append]
    congr 1
    cases hs : made? s with
    | none => simp [hs, last?]
    | some e => by_cases he : e.1 = name <;> simp [hs, last?, he]

theorem synonym?_eq_last (name : String) (ss : List Stmt) :
    (ofStmts ss).synonym? name = Stmt.lastSynonym? name ss := by
  rw [ofStmts_eq_ofEntries, synonym?, ofEntries, last?_filterMap, Stmt.lastSynonym?]
  congr 2
  funext s
  cases s <;> rfl

theorem definition?_eq_last (name : String) (ss : List Stmt) :
    (ofStmts ss).definition? name = Stmt.lastDefinition? name ss := by
  rw [ofStmts_eq_ofEntries, definition?, ofEntries, last?_filterMap, Stmt.lastDefinition?]
  congr 2
  funext s
  cases s <;> rfl

/-- Statements make as many definitions in any order. -/
theorem length_definitions_ofStmts {ss ts : List Stmt} (h : ss.Perm ts) :
    (ofStmts ss).definitions.length = (ofStmts ts).definitions.length := by
  have hall : (Stmt.allStatements ss).Perm (Stmt.allStatements ts) := by
    rw [Stmt.allStatements_eq_flatMap, Stmt.allStatements_eq_flatMap]
    exact h.flatMap_right _
  rw [ofStmts_eq_ofEntries, ofStmts_eq_ofEntries]
  exact (hall.filterMap Stmt.definitionEntry?).length_eq

end Names

mutual

theorem Expr.map_id (e : Expr) : e.map id id = e := by
  cases e with
  | ident i => rfl
  | size s =>
    rcases s with ⟨p, a, m, b⟩
    cases a <;> rfl
  | stitch position name args => simp [Expr.map, Expr.map_id_list args, Identifier.map]
  | row es args => simp [Expr.map, Expr.map_id_list es, Expr.map_id_list args]
  | group lbrace rbrace args lines =>
    simp [Expr.map, Expr.map_id_list args, Stmt.map_id_list lines]

theorem Expr.map_id_list (es : List Expr) : es.map (Expr.map id id) = es := by
  cases es with
  | nil => rfl
  | cons e es => rw [List.map_cons, Expr.map_id e, Expr.map_id_list es]

theorem Stmt.map_id (s : Stmt) : s.map id id = s := by
  cases s with
  | synonym lhs rhs desc => rfl
  | define lhs rhs desc => simp [Stmt.map, Expr.map_id rhs, Identifier.map]
  | row es args desc => simp [Stmt.map, Expr.map_id_list es, Expr.map_id_list args]
  | group lbrace rbrace args lines desc =>
    simp [Stmt.map, Expr.map_id_list args, Stmt.map_id_list lines]
  | block ss start stop desc => simp [Stmt.map, Stmt.map_id_list ss]

theorem Stmt.map_id_list (ss : List Stmt) : ss.map (Stmt.map id id) = ss := by
  cases ss with
  | nil => rfl
  | cons s ss => rw [List.map_cons, Stmt.map_id s, Stmt.map_id_list ss]

end

theorem Record.describe_id : describe id = id := by
  funext r
  cases r <;> rfl

namespace Layout

theorem relabel_id {α : Type} (x : Except LayoutError α) : relabel id id x = x := by
  cases x with
  | ok a => rfl
  | error e => cases e <;> rfl

/-- Names that say the same of every name lay statements out alike. -/
theorem statements_congr {n n' : Names} (hs : ∀ name, n'.synonym? name = n.synonym? name)
    (hd : ∀ name, n'.definition? name = n.definition? name)
    (hlen : n'.definitions.length = n.definitions.length) (ss : List Stmt) :
    statements (outside n') ss = statements (outside n) ss := by
  have hn : Names.Relabelled id id n n' := by
    refine ⟨fun name => ?_, fun name => ?_⟩
    · rw [hs name, show Identifier.map id = id from rfl, Option.map_id_fun, id_eq]
    · rw [hd name, show Expr.map id id = id from funext Expr.map_id, Option.map_id_fun, id_eq]
  have hp := expand_relabel (l := id) hn ⟨fun _ => rfl, rfl⟩ n.definitions.length []
  have h := statements_relabel hp ⟨fun _ => rfl, rfl⟩ ss
  rw [Stmt.map_id_list, Record.describe_id, List.map_id_fun, relabel_id] at h
  rw [outside, hlen, h]
  rfl

/-- Synonyms and definitions have no records. -/
theorem statements_filter_isKnitted (p : Place) (ss : List Stmt) :
    statements p (ss.filter Stmt.isKnitted) = statements p ss := by
  induction ss with
  | nil => rfl
  | cons s ss ih =>
    have hskip (h : statement p s = .ok []) : statements p (s :: ss) = statements p ss := by
      simp only [statements, h]
      cases statements p ss <;> rfl
    cases s with
    | synonym lhs rhs desc => exact ih.trans (hskip rfl).symm
    | define lhs rhs desc => exact ih.trans (hskip rfl).symm
    | row es args desc => simp only [List.filter_cons, Stmt.isKnitted, if_true, statements, ih]
    | group lbrace rbrace args lines desc =>
      simp only [List.filter_cons, Stmt.isKnitted, if_true, statements, ih]
    | block ts start stop desc =>
      simp only [List.filter_cons, Stmt.isKnitted, if_true, statements, ih]

end Layout

/-- Every name stands for what its last synonym and its last definition say; so statements in
another order have the same records, or the same error, if those that are knitted keep their order
and the last synonym and the last definition of every name are the same. -/
theorem Block.records_reordered (b : Block) :
    (∀ name, (Names.ofBlock b).synonym? name = Stmt.lastSynonym? name b.statements ∧
      (Names.ofBlock b).definition? name = Stmt.lastDefinition? name b.statements) ∧
    ∀ ss : List Stmt, ss.Perm b.statements →
      ss.filter Stmt.isKnitted = b.statements.filter Stmt.isKnitted →
      (∀ name, Stmt.lastSynonym? name ss = Stmt.lastSynonym? name b.statements) →
      (∀ name, Stmt.lastDefinition? name ss = Stmt.lastDefinition? name b.statements) →
      { b with statements := ss }.records = b.records := by
  refine ⟨fun name => ⟨Names.synonym?_eq_last name _, Names.definition?_eq_last name _⟩, ?_⟩
  intro ss hperm hknitted hsynonym hdefinition
  have hs (name : String) :
      (Names.ofStmts ss).synonym? name = (Names.ofStmts b.statements).synonym? name := by
    rw [Names.synonym?_eq_last, Names.synonym?_eq_last, hsynonym]
  have hd (name : String) :
      (Names.ofStmts ss).definition? name = (Names.ofStmts b.statements).definition? name := by
    rw [Names.definition?_eq_last, Names.definition?_eq_last, hdefinition]
  have hlen := Names.length_definitions_ofStmts hperm
  have hlayout : Layout.statements (Layout.outside (Names.ofStmts ss)) ss =
      Layout.statements (Layout.outside (Names.ofStmts b.statements)) b.statements := by
    calc Layout.statements (Layout.outside (Names.ofStmts ss)) ss
        = Layout.statements (Layout.outside (Names.ofStmts b.statements)) ss :=
          Layout.statements_congr hs hd hlen ss
      _ = Layout.statements (Layout.outside (Names.ofStmts b.statements))
            (ss.filter Stmt.isKnitted) := (Layout.statements_filter_isKnitted _ ss).symm
      _ = Layout.statements (Layout.outside (Names.ofStmts b.statements)) b.statements := by
          rw [hknitted, Layout.statements_filter_isKnitted]
  exact congrArg (Except.map (Layout.blockRecords b.desc)) hlayout

/-- A definition, and a group with another definition of the same name. -/
def Stmt.twoDefinitions : List Stmt :=
  [.define ⟨⟨1, 1⟩, "a"⟩ (.row [.stitch ⟨1, 5⟩ ⟨⟨1, 5⟩, "k"⟩ []] []) .none,
    .define ⟨⟨2, 1⟩, "g"⟩ (.group ⟨2, 5⟩ ⟨5, 1⟩ []
      [.define ⟨⟨3, 1⟩, "a"⟩ (.row [.stitch ⟨3, 5⟩ ⟨⟨3, 5⟩, "p"⟩ []] []) .none,
        .row [.stitch ⟨4, 1⟩ ⟨⟨4, 1⟩, "x"⟩ []] [] .none]) .none]

def Stmt.useOfGroup : Stmt := .row [.stitch ⟨6, 1⟩ ⟨⟨6, 1⟩, "g"⟩ []] [] .none

def Stmt.useOfRow : Stmt := .row [.stitch ⟨7, 1⟩ ⟨⟨7, 1⟩, "a"⟩ []] [] .none

def Stmt.purlSynonym : Stmt := .synonym ⟨⟨8, 1⟩, "p"⟩ ⟨⟨8, 6⟩, "purl"⟩ .none

def Block.overwriting : Block :=
  ⟨Stmt.twoDefinitions ++ [.useOfGroup, .useOfRow, .purlSynonym], ⟨1, 1⟩, ⟨9, 0⟩, .none⟩

/-- The definitions may stand behind the rows that use them, and the synonym between those. -/
theorem Block.records_reordered_overwriting :
    Pattern.ofText "a = k\ng = \x7b\na = p\nx\n\x7d\ng\na\np := purl\n" = .ok overwriting ∧
    { overwriting with
      statements := [Stmt.useOfGroup, .purlSynonym, .useOfRow] ++ Stmt.twoDefinitions }.records =
        overwriting.records ∧
    overwriting.records = .ok [.startBlock [], .startGroup [] [], .startRow [] [],
      .content ⟨[], [], ["x"]⟩, .endRow, .endGroup, .startRow [] [], .content ⟨[], [], ["purl"]⟩,
      .endRow, .endBlock] := by
  refine ⟨rfl, overwriting.records_reordered.2 _ ?_ rfl (fun _ => rfl) (fun _ => rfl), rfl⟩
  have hswap : [Stmt.useOfGroup, .purlSynonym, .useOfRow].Perm
      [.useOfGroup, .useOfRow, .purlSynonym] := .cons _ (.swap _ _ _)
  exact (hswap.append_right _).trans List.perm_append_comm

end KnittingPattern
