import KnittingPattern.Proofs.PatternGrammar
import KnittingPattern.Record.Layout

/-! # Layouts of trees with other positions and descriptions

A layout depends on positions and descriptions in no other way than that errors have positions and
the starts of blocks, groups and rows have descriptions.  So a tree with other positions and
descriptions has the same records but for those, or the same error at another position.  Main
theorems: `Layout.statements_relabel`, `Block.records_map`. -/

namespace KnittingPattern

/-- The same error at another position. -/
def LayoutError.map (f : Position → Position) : LayoutError → LayoutError
  | undefined id => undefined (id.map f)
  | circular id => circular (id.map f)
  | groupInRow name position => groupInRow name (f position)

/-- The record with other lines as its description. -/
def Record.describe (l : List String → List String) : Record → Record
  | startBlock desc => startBlock (l desc)
  | startGroup desc args => startGroup (l desc) args
  | startRow desc args => startRow (l desc) args
  | r => r

/-- The piece with other lines as the descriptions of its records. -/
def Piece.describe (l : List String → List String) : Piece → Piece
  | records rs => records (rs.map (Record.describe l))
  | p => p

/-- The lines of changed descriptions are the changed lines, and no lines stay none. -/
structure Description.Changes (g : Description → Description) (l : List String → List String) :
    Prop where
  lines : ∀ d, (g d).lines = l d.lines
  nil : l [] = []

namespace Names

/-- Both collections of names have the same entries but for positions and descriptions. -/
structure Relabelled (f : Position → Position) (g : Description → Description) (n n' : Names) :
    Prop where
  synonyms : ∀ name, n'.synonym? name = (n.synonym? name).map (Identifier.map f)
  definitions : ∀ name, n'.definition? name = (n.definition? name).map (Expr.map f g)

section

variable (f : Position → Position) (g : Description → Description)

/-- The names with other positions and descriptions. -/
def map (n : Names) : Names :=
  ⟨n.synonyms.map fun e => (e.1, e.2.map f), n.definitions.map fun e => (e.1, e.2.map f g)⟩

theorem map_append (a b : Names) : (a.append b).map f g = (a.map f g).append (b.map f g) := by
  simp [append, map]

theorem last?_map {α β : Type} (h : α → β) (name : String) (entries : List (String × α)) :
    last? name (entries.map fun e => (e.1, h e.2)) = (last? name entries).map h := by
  simp only [last?, ← List.map_reverse, List.find?_map, Option.map_map]
  rfl

theorem relabelled_map (n : Names) : Relabelled f g n (n.map f g) :=
  ⟨fun name => last?_map _ name n.synonyms, fun name => last?_map _ name n.definitions⟩

mutual

theorem ofExpr_map (e : Expr) : ofExpr (e.map f g) = (ofExpr e).map f g := by
  cases e with
  | row es args => simpa [ofExpr, Expr.map] using ofExprs_map es
  | group lbrace rbrace args lines => simpa [ofExpr, Expr.map] using ofStmts_map lines
  | ident id => rfl
  | size s => rfl
  | stitch position name args => rfl

theorem ofExprs_map (es : List Expr) : ofExprs (es.map (Expr.map f g)) = (ofExprs es).map f g := by
  cases es with
  | nil => rfl
  | cons e es => simp only [List.map_cons, ofExprs, ofExpr_map e, ofExprs_map es, map_append]

theorem ofStmt_map (s : Stmt) : ofStmt (s.map f g) = (ofStmt s).map f g := by
  cases s with
  | synonym lhs rhs desc => rfl
  | define lhs rhs desc =>
    simp only [ofStmt, Stmt.map, ofExpr_map rhs, map_append]
    rfl
  | row es args desc => simpa [ofStmt, Stmt.map] using ofExprs_map es
  | group lbrace rbrace args lines desc => simpa [ofStmt, Stmt.map] using ofStmts_map lines
  | block ss start stop desc => simpa [ofStmt, Stmt.map] using ofStmts_map ss

theorem ofStmts_map (ss : List Stmt) : ofStmts (ss.map (Stmt.map f g)) = (ofStmts ss).map f g := by
  cases ss with
  | nil => rfl
  | cons s ss => simp only [List.map_cons, ofStmts, ofStmt_map s, ofStmts_map ss, map_append]

end

theorem ofBlock_map (b : Block) : ofBlock (b.map f g) = (ofBlock b).map f g := by
  rw [ofBlock, Block.map, Stmt.mapAll_eq_map, ofStmts_map]
  rfl

end

variable {f : Position → Position} {g : Description → Description} {n n' : Names}

namespace Relabelled

theorem rendering (h : Relabelled f g n n') (id : Identifier) :
    n'.rendering (id.map f) = n.rendering id := by
  have hid : n'.synonym? (id.map f).name = (n.synonym? id.name).map (Identifier.map f) :=
    h.synonyms id.name
  simp only [Names.rendering, hid]
  cases n.synonym? id.name <;> rfl

theorem amountText (h : Relabelled f g n n') (a : Amount) : (a.map f).text n' = a.text n := by
  cases a with
  | named id => exact h.rendering id
  | whole k => rfl
  | decimal x => rfl
  | unstated => rfl

theorem exprText (h : Relabelled f g n n') (e : Expr) : (e.map f g).text n' = e.text n := by
  cases e with
  | ident id => exact h.rendering id
  | size s =>
    have ha := h.amountText s.amount
    simp only [Expr.map, Expr.text, Size.text, Size.isToEnd, Size.map, ha]
    rfl
  | stitch position name args => rfl
  | row es args => rfl
  | group lbrace rbrace args lines => rfl

theorem texts (h : Relabelled f g n n') (args : List Expr) :
    Brackets.texts n' (args.map (Expr.map f g)) = Brackets.texts n args := by
  rw [Brackets.texts, List.map_map]
  exact List.map_congr_left fun e _ => h.exprText e

theorem phrase (h : Relabelled f g n n') (args : List Expr) :
    Brackets.phrase n' (args.map (Expr.map f g)) = Brackets.phrase n args := by
  rw [Brackets.phrase, Brackets.phrase, h.texts]

theorem stitchFragment (h : Relabelled f g n n') (id : Identifier) (args : List Expr) :
    Layout.stitchFragment n' (id.map f) (args.map (Expr.map f g)) =
      Layout.stitchFragment n id args := by
  simp only [Layout.stitchFragment, h.phrase, h.rendering]

end Relabelled
end Names

open Names (Relabelled)

section

variable {l : List String → List String}

namespace Piece

theorem map_rowRecords (desc args : List String) (c : Content) :
    (rowRecords desc args c).map (Record.describe l) = rowRecords (l desc) args c := by
  unfold rowRecords
  split <;> rfl

theorem map_assemble (desc args : List String) (c : Content) (ps : List Piece) :
    (assemble desc args c ps).map (Record.describe l) =
      assemble (l desc) args c (ps.map (describe l)) := by
  induction ps generalizing c with
  | nil => exact map_rowRecords desc args c
  | cons p ps ih =>
    cases p with
    | fragment t => exact ih _
    | args ts => exact ih _
    | records rs =>
      simp only [assemble, List.map_append, map_rowRecords, ih, List.map_cons, describe]

end Piece

namespace Layout

theorem map_braced {f : Position → Position} {g : Description → Description} {n n' : Names}
    (h : Relabelled f g n n') (args : List Expr) (ps : List Piece) :
    (braced n args ps).map (Piece.describe l) =
      braced n' (args.map (Expr.map f g)) (ps.map (Piece.describe l)) := by
  simp [braced, h.phrase, Piece.describe]

theorem map_groupRecords (desc args : List String) (rs : List Record) :
    (groupRecords desc args rs).map (Record.describe l) =
      groupRecords (l desc) args (rs.map (Record.describe l)) := by
  simp [groupRecords, Record.describe]

end Layout
end

namespace Layout

/-- What is laid out, or the error at another position. -/
def relabel {α β : Type} (f : Position → Position) (h : α → β) :
    Except LayoutError α → Except LayoutError β
  | .ok a => .ok (h a)
  | .error e => .error (e.map f)

theorem relabel_bind {α β α' β' : Type} {f : Position → Position} {h : α → α'} {k : β → β'}
    {x : Except LayoutError α} {next : α → Except LayoutError β}
    {next' : α' → Except LayoutError β'} (hn : ∀ a, next' (h a) = relabel f k (next a)) :
    relabel f h x >>= next' = relabel f k (x >>= next) := by
  cases x with
  | ok a => exact hn a
  | error e => rfl

/-- What is the same once it is relabelled. -/
theorem exists_of_relabel_eq {α β : Type} {f : Position → Position} {h : α → β}
    {x y : Except LayoutError α} (hxy : relabel f h y = relabel f h x) :
    (∃ e e', x = .error e ∧ y = .error e' ∧ e'.map f = e.map f) ∨
      ∃ a a', x = .ok a ∧ y = .ok a' ∧ h a' = h a := by
  cases x with
  | error e =>
    cases y with
    | error e' => exact .inl ⟨e, e', rfl, rfl, Except.error.inj hxy⟩
    | ok a' => cases hxy
  | ok a =>
    cases y with
    | error e' => cases hxy
    | ok a' => exact .inr ⟨a, a', rfl, rfl, Except.ok.inj hxy⟩

variable {f : Position → Position} {g : Description → Description} {l : List String → List String}

/-- At both places all is the same but for positions and descriptions. -/
structure Place.Relabelled (f : Position → Position) (g : Description → Description)
    (l : List String → List String) (p p' : Place) : Prop where
  names : p.names.Relabelled f g p'.names
  within : p'.within = p.within
  expand : ∀ inline id d, p'.expand inline (id.map f) (d.map f g) =
    relabel f (List.map (Piece.describe l)) (p.expand inline id d)

theorem loneName?_map (es args : List Expr) :
    loneName? (es.map (Expr.map f g)) (args.map (Expr.map f g)) =
      (loneName? es args).map (Identifier.map f) := by
  match es, args with
  | [.ident id], [] => rfl
  | [.stitch _ _ []], [] => rfl
  | [.stitch _ _ (_ :: _)], [] => rfl
  | [.size _], [] => rfl
  | [.row _ _], [] => rfl
  | [.group _ _ _ _], [] => rfl
  | [], [] => rfl
  | _ :: _ :: _, [] => simp [loneName?]
  | _, _ :: _ => simp [loneName?]

theorem loneRow?_map {n n' : Names} (h : Names.Relabelled f g n n') (es args : List Expr) :
    loneRow? n' (es.map (Expr.map f g)) (args.map (Expr.map f g)) =
      (loneRow? n es args).map fun (id, es, args) =>
        (id.map f, es.map (Expr.map f g), args.map (Expr.map f g)) := by
  rw [loneRow?, loneRow?, loneName?_map]
  cases loneName? es args with
  | none => rfl
  | some id =>
    have hd : n'.definition? (id.map f).name = (n.definition? id.name).map (Expr.map f g) :=
      h.definitions id.name
    simp only [Option.map_some, Option.bind_eq_bind, Option.bind_some, hd]
    cases n.definition? id.name with
    | none => rfl
    | some d =>
      cases d with
      | row es args => cases args <;> simp [Expr.map]
      | ident id => rfl
      | size s => rfl
      | stitch position name args => rfl
      | group lbrace rbrace args lines => rfl

section

variable {p p' : Place}

mutual

theorem element_relabel (h : p.Relabelled f g l p') (hc : Description.Changes g l) (inline : Bool)
    (e : Expr) : element p' inline (e.map f g) =
      relabel f (List.map (Piece.describe l)) (element p inline e) := by
  cases e with
  | ident id =>
    have hd := h.names.definitions id.name
    simp only [element, Expr.map, Identifier.map, hd]
    cases p.names.definition? id.name with
    | none => rfl
    | some d => exact h.expand inline id d
  | size s => rfl
  | stitch position name args =>
    have hd := h.names.definitions name.name
    have ht := h.names.texts args
    have hs := h.names.stitchFragment name args
    simp only [element, Expr.map, Expr.mapAll_eq_map, hs, ht]
    simp only [Identifier.map, hd]
    cases p.names.definition? name.name with
    | none => rfl
    | some d =>
      simp only [Option.map_some]
      rw [show Identifier.mk (f name.position) name.name = name.map f from rfl, h.expand]
      exact relabel_bind fun ps => rfl
  | row es args =>
    simp only [element, Expr.map, Expr.mapAll_eq_map, elements_relabel h hc true es]
    exact relabel_bind fun ps => congrArg Except.ok (map_braced h.names args ps).symm
  | group lbrace rbrace args lines =>
    simp only [element, Expr.map, Expr.mapAll_eq_map, Stmt.mapAll_eq_map, h.within]
    cases inline with
    | true => rfl
    | false =>
      have ht := h.names.texts args
      simp only [Bool.false_eq_true, if_false, statements_relabel h hc lines, ht]
      refine relabel_bind fun rs => ?_
      have hg : (groupRecords [] (Brackets.texts p.names args) rs).map (Record.describe l) =
          groupRecords (l []) (Brackets.texts p.names args) (rs.map (Record.describe l)) :=
        map_groupRecords _ _ rs
      rw [hc.nil] at hg
      exact congrArg (fun rs => Except.ok [Piece.records rs]) hg.symm

theorem elements_relabel (h : p.Relabelled f g l p') (hc : Description.Changes g l) (inline : Bool)
    (es : List Expr) : elements p' inline (es.map (Expr.map f g)) =
      relabel f (List.map (Piece.describe l)) (elements p inline es) := by
  cases es with
  | nil => rfl
  | cons e es =>
    simp only [List.map_cons, elements, element_relabel h hc inline e,
      elements_relabel h hc inline es]
    exact relabel_bind fun ps => relabel_bind fun qs => congrArg Except.ok List.map_append.symm

theorem statement_relabel (h : p.Relabelled f g l p') (hc : Description.Changes g l) (s : Stmt) :
    statement p' (s.map f g) = relabel f (List.map (Record.describe l)) (statement p s) := by
  cases s with
  | synonym lhs rhs desc => rfl
  | define lhs rhs desc => rfl
  | row es args desc =>
    have hr := loneRow?_map h.names es args
    simp only [statement, Stmt.map, Expr.mapAll_eq_map, hr]
    cases loneRow? p.names es args with
    | none =>
      simp only [Option.map_none, elements_relabel h hc false es, h.names.texts]
      refine relabel_bind fun ps => congrArg Except.ok ?_
      simp only [statementRecords, Piece.map_assemble, hc.lines]
      rfl
    | some found =>
      obtain ⟨id, es', args'⟩ := found
      have he := h.expand false id (.row es' [])
      simp only [Expr.map, Expr.mapAll_eq_map, List.map_nil] at he
      simp only [Option.map_some, he, h.names.texts]
      refine relabel_bind fun ps => congrArg Except.ok ?_
      simp only [statementRecords, Piece.map_assemble, hc.lines]
      rfl
  | group lbrace rbrace args lines desc =>
    simp only [statement, Stmt.map, Expr.mapAll_eq_map, Stmt.mapAll_eq_map,
      statements_relabel h hc lines, h.names.texts, hc.lines]
    exact relabel_bind fun rs => congrArg Except.ok (map_groupRecords _ _ rs).symm
  | block ss start stop desc =>
    simp only [statement, Stmt.map, Stmt.mapAll_eq_map, statements_relabel h hc ss]
    refine relabel_bind fun rs => congrArg Except.ok ?_
    simp [blockRecords, Record.describe, hc.lines]

theorem statements_relabel (h : p.Relabelled f g l p') (hc : Description.Changes g l)
    (ss : List Stmt) : statements p' (ss.map (Stmt.map f g)) =
      relabel f (List.map (Record.describe l)) (statements p ss) := by
  cases ss with
  | nil => rfl
  | cons s ss =>
    simp only [List.map_cons, statements, statement_relabel h hc s, statements_relabel h hc ss]
    exact relabel_bind fun rs => relabel_bind fun ts => congrArg Except.ok List.map_append.symm

end

theorem definitionPieces_relabel (h : p.Relabelled f g l p') (hc : Description.Changes g l)
    (inline : Bool) (d : Expr) : definitionPieces p' inline (d.map f g) =
      relabel f (List.map (Piece.describe l)) (definitionPieces p inline d) := by
  match d with
  | .row es [] =>
    simpa [definitionPieces, Expr.map] using elements_relabel h hc inline es
  | .row es (arg :: args) =>
    simpa [definitionPieces, Expr.map] using element_relabel h hc inline (.row es (arg :: args))
  | .ident id => exact element_relabel h hc inline (.ident id)
  | .size s => rfl
  | .stitch position name args => exact element_relabel h hc inline (.stitch position name args)
  | .group lbrace rbrace args lines =>
    exact element_relabel h hc inline (.group lbrace rbrace args lines)

end

/-- However deep definitions are in use within each other, they are laid out alike. -/
theorem expand_relabel {n n' : Names} (hn : Names.Relabelled f g n n')
    (hc : Description.Changes g l) (unused : Nat) (within : List String) :
    Place.Relabelled f g l ⟨n, within, expand n unused within⟩
      ⟨n', within, expand n' unused within⟩ := by
  induction unused generalizing within with
  | zero =>
    refine ⟨hn, rfl, fun inline id d => ?_⟩
    by_cases hw : id.name ∈ within
    · simp only [expand, Identifier.map, hw, if_true]
      rfl
    · simp only [expand, Identifier.map, hw, if_false]
      rfl
  | succ unused ih =>
    refine ⟨hn, rfl, fun inline id d => ?_⟩
    by_cases hw : id.name ∈ within
    · simp only [expand, Identifier.map, hw, if_true]
      rfl
    · simp only [expand, Identifier.map, hw, if_false]
      exact definitionPieces_relabel (ih _) hc inline d

end Layout

open Layout

/-- A pattern with other positions and descriptions has the same records, but for descriptions, or
the same error at another position. -/
theorem Block.records_map {f : Position → Position} {g : Description → Description}
    {l : List String → List String} (hc : Description.Changes g l) (b : Block) :
    (b.map f g).records = relabel f (List.map (Record.describe l)) b.records := by
  have hn := Names.relabelled_map f g (Names.ofBlock b)
  have hlen : ((Names.ofBlock b).map f g).definitions.length =
      (Names.ofBlock b).definitions.length := by simp [Names.map]
  have hp := expand_relabel hn hc (Names.ofBlock b).definitions.length []
  have hs := statements_relabel hp hc b.statements
  rw [records, recordsUnder, outside, Names.ofBlock_map, hlen, Block.map, Stmt.mapAll_eq_map]
  simp only [hs, records, recordsUnder, outside]
  cases Layout.statements _ b.statements with
  | error e => rfl
  | ok rs => simp [relabel, Except.map, blockRecords, Record.describe, hc.lines]

end KnittingPattern
