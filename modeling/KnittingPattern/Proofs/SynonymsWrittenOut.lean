import KnittingPattern.Proofs.DefinitionOrder

/-! # Synonyms written out

A synonym only changes how a name is written, and is followed once.  So the synonyms of a pattern can
be left out, if every name that they apply to is replaced by the one it is written as: the names of
stitches that have no definition, of arguments, and of amounts.  The records are the same, or the
error is.  Main theorem: `Block.records_synonymsWrittenOut`. -/

namespace KnittingPattern

/-- The name that a name is written as: the other name of its last synonym among the statements of
the whole pattern. -/
def Identifier.writtenOut (ss : List Stmt) (id : Identifier) : Identifier :=
  match Stmt.lastSynonym? id.name ss with
  | some other => ⟨id.position, other.name⟩
  | none => id

/-- The name of a stitch is written out if it has no definition. -/
def Identifier.stitchWrittenOut (ss : List Stmt) (id : Identifier) : Identifier :=
  match Stmt.lastDefinition? id.name ss with
  | some _ => id
  | none => id.writtenOut ss

def Amount.writtenOut (ss : List Stmt) : Amount → Amount
  | named id => named (id.writtenOut ss)
  | whole n => whole n
  | decimal x => decimal x
  | unstated => unstated

def Size.writtenOut (ss : List Stmt) (s : Size) : Size := { s with amount := s.amount.writtenOut ss }

/-- An argument written out; only names and sizes are arguments. -/
def Expr.argWrittenOut (ss : List Stmt) : Expr → Expr
  | .ident id => .ident (id.writtenOut ss)
  | .size s => .size (s.writtenOut ss)
  | e => e

mutual

/-- An expression with its names written out and without its synonyms. -/
def Expr.writtenOut (ss : List Stmt) : Expr → Expr
  | .ident id => .ident id
  | .size s => .size (s.writtenOut ss)
  | .stitch position name args =>
    .stitch position (name.stitchWrittenOut ss) (args.map (Expr.argWrittenOut ss))
  | .row es args => .row (Expr.allWrittenOut ss es) (args.map (Expr.argWrittenOut ss))
  | .group lbrace rbrace args lines =>
    .group lbrace rbrace (args.map (Expr.argWrittenOut ss)) (Stmt.allWrittenOut ss lines)

def Expr.allWrittenOut (ss : List Stmt) : List Expr → List Expr
  | [] => []
  | e :: es => e.writtenOut ss :: Expr.allWrittenOut ss es

/-- A statement with its names written out and without the synonyms in it; nothing is left of a
synonym. -/
def Stmt.writtenOut (ss : List Stmt) : Stmt → List Stmt
  | .synonym _ _ _ => []
  | .define lhs rhs desc => [.define lhs (rhs.writtenOut ss) desc]
  | .row es args desc =>
    [.row (Expr.allWrittenOut ss es) (args.map (Expr.argWrittenOut ss)) desc]
  | .group lbrace rbrace args lines desc =>
    [.group lbrace rbrace (args.map (Expr.argWrittenOut ss)) (Stmt.allWrittenOut ss lines) desc]
  | .block ts start stop desc => [.block (Stmt.allWrittenOut ss ts) start stop desc]

def Stmt.allWrittenOut (ss : List Stmt) : List Stmt → List Stmt
  | [] => []
  | t :: ts => t.writtenOut ss ++ Stmt.allWrittenOut ss ts

end

/-- The pattern without its synonyms, with the names they apply to written out. -/
def Block.synonymsWrittenOut (b : Block) : Block :=
  { b with statements := Stmt.allWrittenOut b.statements b.statements }

/-- No synonym is of a name that has a definition. -/
def Stmt.SynonymsUndefined (ss : List Stmt) : Prop :=
  ∀ lhs rhs desc, .synonym lhs rhs desc ∈ Stmt.allStatements ss →
    ∀ lhs' rhs' desc', .define lhs' rhs' desc' ∈ Stmt.allStatements ss → lhs'.name ≠ rhs.name

variable {ss : List Stmt}

namespace Stmt

theorem mem_of_lastSynonym? {name : String} {other : Identifier}
    (h : lastSynonym? name ss = some other) :
    ∃ lhs desc, .synonym lhs other desc ∈ allStatements ss := by
  obtain ⟨s, hs, hof⟩ := List.mem_filterMap.mp (List.mem_of_getLast? h)
  cases s with
  | synonym lhs rhs desc =>
    simp only [synonymOf?, Option.ite_none_right_eq_some, Option.some.injEq] at hof
    exact ⟨lhs, desc, hof.2 ▸ hs⟩
  | _ => cases hof

theorem lastDefinition?_eq_none {name : String}
    (h : ∀ lhs rhs desc, .define lhs rhs desc ∈ allStatements ss → lhs.name ≠ name) :
    lastDefinition? name ss = none := by
  rw [lastDefinition?, List.getLast?_eq_none_iff, List.filterMap_eq_nil_iff]
  intro s hs
  cases s with
  | define lhs rhs desc => exact if_neg (h lhs rhs desc hs)
  | _ => rfl

theorem SynonymsUndefined.lastDefinition? (h : SynonymsUndefined ss) {name : String}
    {other : Identifier} (hs : lastSynonym? name ss = some other) :
    lastDefinition? other.name ss = none := by
  obtain ⟨lhs, desc, hm⟩ := mem_of_lastSynonym? hs
  exact lastDefinition?_eq_none (h lhs other desc hm)

end Stmt

/-- A name without a definition is not written as one that has a definition. -/
theorem Identifier.lastDefinition?_writtenOut (h : Stmt.SynonymsUndefined ss) {id : Identifier}
    (hid : Stmt.lastDefinition? id.name ss = none) :
    Stmt.lastDefinition? (id.writtenOut ss).name ss = none := by
  unfold Identifier.writtenOut
  cases hs : Stmt.lastSynonym? id.name ss with
  | some other =>
    have hother : Stmt.lastDefinition? other.name ss = none := h.lastDefinition? hs
    exact hother
  | none => exact hid

namespace Names

/-- The definitions written out, and no synonyms. -/
def writtenOut (ss : List Stmt) (n : Names) : Names :=
  ⟨[], n.definitions.map fun e => (e.1, e.2.writtenOut ss)⟩

theorem writtenOut_append (a b : Names) :
    (a.append b).writtenOut ss = (a.writtenOut ss).append (b.writtenOut ss) := by
  simp [append, writtenOut]

theorem ofStmts_append (ts us : List Stmt) :
    ofStmts (ts ++ us) = (ofStmts ts).append (ofStmts us) := by
  induction ts with
  | nil => rfl
  | cons t ts ih => simp [ofStmts, ih, append]

theorem ofStmts_singleton (t : Stmt) : ofStmts [t] = ofStmt t := by
  simp [ofStmts, none, append]

mutual

theorem ofExpr_writtenOut (e : Expr) : ofExpr (e.writtenOut ss) = (ofExpr e).writtenOut ss := by
  cases e with
  | row es args => exact ofExprs_allWrittenOut es
  | group lbrace rbrace args lines => exact ofStmts_allWrittenOut lines
  | ident id => rfl
  | size s => rfl
  | stitch position name args => rfl

theorem ofExprs_allWrittenOut (es : List Expr) :
    ofExprs (Expr.allWrittenOut ss es) = (ofExprs es).writtenOut ss := by
  cases es with
  | nil => rfl
  | cons e es =>
    rw [Expr.allWrittenOut, ofExprs, ofExprs, ofExpr_writtenOut e, ofExprs_allWrittenOut es,
      writtenOut_append]

theorem ofStmts_writtenOut (t : Stmt) : ofStmts (t.writtenOut ss) = (ofStmt t).writtenOut ss := by
  cases t with
  | synonym lhs rhs desc => rfl
  | define lhs rhs desc =>
    rw [Stmt.writtenOut, ofStmts_singleton, ofStmt, ofStmt, ofExpr_writtenOut rhs, writtenOut_append]
    rfl
  | row es args desc =>
    rw [Stmt.writtenOut, ofStmts_singleton]
    exact ofExprs_allWrittenOut es
  | group lbrace rbrace args lines desc =>
    rw [Stmt.writtenOut, ofStmts_singleton]
    exact ofStmts_allWrittenOut lines
  | block ts start stop desc =>
    rw [Stmt.writtenOut, ofStmts_singleton]
    exact ofStmts_allWrittenOut ts

theorem ofStmts_allWrittenOut (ts : List Stmt) :
    ofStmts (Stmt.allWrittenOut ss ts) = (ofStmts ts).writtenOut ss := by
  cases ts with
  | nil => rfl
  | cons t ts =>
    rw [Stmt.allWrittenOut, ofStmts_append, ofStmts, ofStmts_writtenOut t, ofStmts_allWrittenOut ts,
      writtenOut_append]

end

theorem definition?_writtenOut (n : Names) (name : String) :
    (n.writtenOut ss).definition? name = (n.definition? name).map (Expr.writtenOut ss) :=
  last?_map _ name n.definitions

/-- Without synonyms the name that a name is written as is written as it is. -/
theorem rendering_writtenOut (n : Names) (id : Identifier) :
    (n.writtenOut ss).rendering (id.writtenOut ss) = (ofStmts ss).rendering id := by
  simp only [rendering, synonym?_eq_last, Identifier.writtenOut]
  cases Stmt.lastSynonym? id.name ss <;> rfl

theorem amountText_writtenOut (n : Names) (a : Amount) :
    (a.writtenOut ss).text (n.writtenOut ss) = a.text (ofStmts ss) := by
  cases a with
  | named id => exact rendering_writtenOut n id
  | whole k => rfl
  | decimal x => rfl
  | unstated => rfl

theorem exprText_argWrittenOut (n : Names) (e : Expr) :
    (e.argWrittenOut ss).text (n.writtenOut ss) = e.text (ofStmts ss) := by
  cases e with
  | ident id => exact rendering_writtenOut n id
  | size s =>
    simp only [Expr.argWrittenOut, Expr.text, Size.text, Size.isToEnd, Size.writtenOut,
      amountText_writtenOut]
    rfl
  | stitch position name args => rfl
  | row es args => rfl
  | group lbrace rbrace args lines => rfl

theorem texts_argWrittenOut (n : Names) (args : List Expr) :
    Brackets.texts (n.writtenOut ss) (args.map (Expr.argWrittenOut ss)) =
      Brackets.texts (ofStmts ss) args := by
  rw [Brackets.texts, List.map_map]
  exact List.map_congr_left fun e _ => exprText_argWrittenOut n e

theorem phrase_argWrittenOut (n : Names) (args : List Expr) :
    Brackets.phrase (n.writtenOut ss) (args.map (Expr.argWrittenOut ss)) =
      Brackets.phrase (ofStmts ss) args := by
  rw [Brackets.phrase, Brackets.phrase, texts_argWrittenOut]

end Names

namespace Layout

theorem statements_append (p : Place) (ts us : List Stmt) :
    statements p (ts ++ us) = do return (← statements p ts) ++ (← statements p us) := by
  induction ts with
  | nil =>
    simp only [List.nil_append, statements]
    cases statements p us <;> rfl
  | cons t ts ih =>
    simp only [List.cons_append, statements, ih]
    cases statement p t with
    | error e => rfl
    | ok rs =>
      cases statements p ts with
      | error e => rfl
      | ok rs' => cases statements p us <;> simp [bind, Except.bind, pure, Except.pure]

theorem statements_singleton (p : Place) (t : Stmt) : statements p [t] = statement p t := by
  simp only [statements]
  cases statement p t <;> simp [bind, Except.bind, pure, Except.pure]

/-- Two places of a pattern, the second one with the synonyms written out, at which definitions are
laid out alike. -/
structure Place.WritesOut (ss : List Stmt) (p p' : Place) : Prop where
  undefined : Stmt.SynonymsUndefined ss
  names : p.names = Names.ofStmts ss
  names_writtenOut : p'.names = p.names.writtenOut ss
  within : p'.within = p.within
  expand : ∀ inline id d, p'.expand inline id (d.writtenOut ss) = p.expand inline id d

theorem loneName?_writtenOut (ss : List Stmt) (es args : List Expr) :
    loneName? (Expr.allWrittenOut ss es) (args.map (Expr.argWrittenOut ss)) = loneName? es args ∨
      ∃ id, loneName? es args = some id ∧ Stmt.lastDefinition? id.name ss = none ∧
        loneName? (Expr.allWrittenOut ss es) (args.map (Expr.argWrittenOut ss)) =
          some (id.writtenOut ss) := by
  match es, args with
  | [.stitch position name []], [] =>
    cases hd : Stmt.lastDefinition? name.name ss with
    | some d =>
      left
      simp [Expr.allWrittenOut, Expr.writtenOut, Identifier.stitchWrittenOut, hd]
    | none =>
      right
      refine ⟨name, rfl, hd, ?_⟩
      simp [Expr.allWrittenOut, Expr.writtenOut, Identifier.stitchWrittenOut, hd, loneName?]
  | [.stitch _ _ (_ :: _)], [] => exact .inl rfl
  | [.ident _], [] => exact .inl rfl
  | [.size _], [] => exact .inl rfl
  | [.row _ _], [] => exact .inl rfl
  | [.group _ _ _ _], [] => exact .inl rfl
  | [], [] => exact .inl rfl
  | _ :: _ :: _, [] => exact .inl (by simp [Expr.allWrittenOut, loneName?])
  | _, _ :: _ => exact .inl (by simp [loneName?])

variable {p p' : Place}

namespace Place.WritesOut

theorem definition? (h : p.WritesOut ss p') (name : String) :
    p.names.definition? name = Stmt.lastDefinition? name ss := by
  rw [h.names, Names.definition?_eq_last]

theorem definition?_map (h : p.WritesOut ss p') (name : String) :
    p'.names.definition? name = (p.names.definition? name).map (Expr.writtenOut ss) := by
  rw [h.names_writtenOut, Names.definition?_writtenOut]

theorem texts (h : p.WritesOut ss p') (args : List Expr) :
    Brackets.texts p'.names (args.map (Expr.argWrittenOut ss)) = Brackets.texts p.names args := by
  rw [h.names_writtenOut, Names.texts_argWrittenOut, h.names]

theorem stitchFragment (h : p.WritesOut ss p') (id : Identifier) (args : List Expr) :
    Layout.stitchFragment p'.names (id.writtenOut ss) (args.map (Expr.argWrittenOut ss)) =
      Layout.stitchFragment p.names id args := by
  simp only [Layout.stitchFragment, h.names_writtenOut, Names.phrase_argWrittenOut,
    Names.rendering_writtenOut, h.names]

theorem braced (h : p.WritesOut ss p') (args : List Expr) (ps : List Piece) :
    Layout.braced p'.names (args.map (Expr.argWrittenOut ss)) ps = Layout.braced p.names args ps := by
  simp only [Layout.braced, h.names_writtenOut, Names.phrase_argWrittenOut, h.names]

/-- A row that is just a name stands for the same row; if it has no definition, neither has the name
it is written as. -/
theorem loneRow? (h : p.WritesOut ss p') (es args : List Expr) :
    Layout.loneRow? p'.names (Expr.allWrittenOut ss es) (args.map (Expr.argWrittenOut ss)) =
      (Layout.loneRow? p.names es args).map fun (id, es, args) =>
        (id, Expr.allWrittenOut ss es, args.map (Expr.argWrittenOut ss)) := by
  obtain hl | ⟨id, hl, hd, hl'⟩ := loneName?_writtenOut ss es args
  · rw [Layout.loneRow?, Layout.loneRow?, hl]
    cases loneName? es args with
    | none => rfl
    | some id =>
      simp only [Option.bind_eq_bind, Option.bind_some, h.definition?_map]
      cases p.names.definition? id.name with
      | none => rfl
      | some d =>
        cases d with
        | row es args => cases args <;> rfl
        | ident id => rfl
        | size s => rfl
        | stitch position name args => rfl
        | group lbrace rbrace args lines => rfl
  · have hd' : p.names.definition? (id.writtenOut ss).name = none := by
      rw [h.definition?]
      exact Identifier.lastDefinition?_writtenOut h.undefined hd
    rw [← h.definition?] at hd
    simp [Layout.loneRow?, hl, hl', hd, hd', h.definition?_map]

end Place.WritesOut

mutual

theorem element_writtenOut (h : p.WritesOut ss p') (inline : Bool) (e : Expr) :
    element p' inline (e.writtenOut ss) = element p inline e := by
  cases e with
  | ident id =>
    simp only [Expr.writtenOut, element, h.definition?_map]
    cases p.names.definition? id.name with
    | none => rfl
    | some d => exact h.expand inline id d
  | size s => rfl
  | stitch position name args =>
    simp only [Expr.writtenOut, element, h.definition?_map, Identifier.stitchWrittenOut,
      ← h.definition?]
    cases hd : p.names.definition? name.name with
    | none =>
      have hd' : p.names.definition? (name.writtenOut ss).name = none := by
        rw [h.definition?] at hd ⊢
        exact Identifier.lastDefinition?_writtenOut h.undefined hd
      simp only [hd', Option.map_none, h.stitchFragment]
    | some d => simp only [hd, Option.map_some, h.expand, h.texts]
  | row es args =>
    simp only [Expr.writtenOut, element, elements_writtenOut h true es, h.braced]
  | group lbrace rbrace args lines =>
    simp only [Expr.writtenOut, element, statements_writtenOut h lines, h.texts, h.within]

theorem elements_writtenOut (h : p.WritesOut ss p') (inline : Bool) (es : List Expr) :
    elements p' inline (Expr.allWrittenOut ss es) = elements p inline es := by
  cases es with
  | nil => rfl
  | cons e es =>
    simp only [Expr.allWrittenOut, elements, element_writtenOut h inline e,
      elements_writtenOut h inline es]

theorem statement_writtenOut (h : p.WritesOut ss p') (t : Stmt) :
    statements p' (t.writtenOut ss) = statement p t := by
  cases t with
  | synonym lhs rhs desc => rfl
  | define lhs rhs desc => rfl
  | row es args desc =>
    simp only [Stmt.writtenOut, statements_singleton, statement, h.loneRow?]
    cases loneRow? p.names es args with
    | none => simp only [Option.map_none, elements_writtenOut h false es, h.texts]
    | some found =>
      obtain ⟨id, es', args'⟩ := found
      have he : p'.expand false id (.row (Expr.allWrittenOut ss es') []) =
          p.expand false id (.row es' []) := h.expand false id (.row es' [])
      simp only [Option.map_some, he, h.texts]
  | group lbrace rbrace args lines desc =>
    simp only [Stmt.writtenOut, statements_singleton, statement, statements_writtenOut h lines,
      h.texts]
  | block ts start stop desc =>
    simp only [Stmt.writtenOut, statements_singleton, statement, statements_writtenOut h ts]

theorem statements_writtenOut (h : p.WritesOut ss p') (ts : List Stmt) :
    statements p' (Stmt.allWrittenOut ss ts) = statements p ts := by
  cases ts with
  | nil => rfl
  | cons t ts =>
    rw [Stmt.allWrittenOut, statements_append, statement_writtenOut h t, statements_writtenOut h ts,
      statements]

end

theorem definitionPieces_writtenOut (h : p.WritesOut ss p') (inline : Bool) (d : Expr) :
    definitionPieces p' inline (d.writtenOut ss) = definitionPieces p inline d := by
  match d with
  | .row es [] => exact elements_writtenOut h inline es
  | .row es (arg :: args) => exact element_writtenOut h inline (.row es (arg :: args))
  | .ident id => exact element_writtenOut h inline (.ident id)
  | .size s => rfl
  | .stitch position name args => exact element_writtenOut h inline (.stitch position name args)
  | .group lbrace rbrace args lines =>
    exact element_writtenOut h inline (.group lbrace rbrace args lines)

/-- Definitions are laid out alike however deep they are in use within each other. -/
theorem expand_writtenOut (h : Stmt.SynonymsUndefined ss) (unused : Nat) (within : List String) :
    let n := Names.ofStmts ss
    Place.WritesOut ss ⟨n, within, expand n unused within⟩
      ⟨n.writtenOut ss, within, expand (n.writtenOut ss) unused within⟩ := by
  induction unused generalizing within with
  | zero => exact ⟨h, rfl, rfl, rfl, fun inline id d => by simp only [expand]⟩
  | succ unused ih =>
    refine ⟨h, rfl, rfl, rfl, fun inline id d => ?_⟩
    simp only [expand, definitionPieces_writtenOut (ih _)]

end Layout

open Layout

/-- Synonyms can be left out of a pattern, if the names they apply to are replaced by those they are
written as, once, and none of these has a definition. -/
theorem Block.records_synonymsWrittenOut (b : Block) (h : Stmt.SynonymsUndefined b.statements) :
    b.synonymsWrittenOut.records = b.records := by
  have hlen : ((Names.ofBlock b).writtenOut b.statements).definitions.length =
      (Names.ofBlock b).definitions.length := by simp [Names.writtenOut]
  have hp : (outside (Names.ofBlock b)).WritesOut b.statements
      (outside ((Names.ofBlock b).writtenOut b.statements)) := by
    rw [outside, outside, hlen]
    exact expand_writtenOut h _ []
  have hnames : Names.ofBlock b.synonymsWrittenOut = (Names.ofBlock b).writtenOut b.statements :=
    Names.ofStmts_allWrittenOut b.statements
  rw [records, recordsUnder, hnames]
  exact congrArg (Except.map (blockRecords b.desc)) (statements_writtenOut hp b.statements)

def Identifier.at (line column : Nat) (name : String) : Identifier := ⟨⟨line, column⟩, name⟩

/-- `m = a b` and `m(m) a(a, m)`, with other names in place of `a`, `b` and the arguments `m`. -/
def Stmt.defineAndUse (a b m : String) : List Stmt :=
  let stitch (line column : Nat) (name : String) (args : List Expr) : Expr :=
    .stitch ⟨line, column⟩ (.at line column name) args
  [.define (.at 4 1 "m") (.row [stitch 4 5 a [], stitch 4 7 b []] []) .none,
    .row [stitch 5 1 "m" [.ident (.at 5 3 m)], stitch 5 6 a [.ident (.at 5 8 a), .ident (.at 5 11 m)]]
      [] .none]

/-- Synonyms of synonyms, and one of a name that has a definition. -/
def Block.chainedSynonyms : Block :=
  ⟨[.synonym (.at 1 1 "a") (.at 1 6 "b") .none, .synonym (.at 2 1 "b") (.at 2 6 "c") .none,
    .synonym (.at 3 1 "m") (.at 3 6 "x") .none] ++ Stmt.defineAndUse "a" "b" "m",
    ⟨1, 1⟩, ⟨6, 0⟩, .none⟩

/-- Each is followed once, and a name that has a definition only where it is an argument. -/
theorem Block.records_synonymsWrittenOut_chained :
    Pattern.ofText "a := b\nb := c\nm := x\nm = a b\nm(m) a(a, m)\n" = .ok chainedSynonyms ∧
    Stmt.SynonymsUndefined chainedSynonyms.statements ∧
    chainedSynonyms.synonymsWrittenOut.statements = Stmt.defineAndUse "b" "c" "x" ∧
    chainedSynonyms.synonymsWrittenOut.records = chainedSynonyms.records ∧
    chainedSynonyms.records = .ok [.startBlock [], .startRow [] [],
      .content ⟨[], ["x"], ["b", "c", "b b x"]⟩, .endRow, .endBlock] := by
  have h : Stmt.SynonymsUndefined chainedSynonyms.statements := by
    intro lhs rhs desc hs lhs' rhs' desc' hd
    simp [chainedSynonyms, Stmt.defineAndUse, Stmt.allStatements, Stmt.statements,
      Expr.statements, Expr.allStatements] at hs hd
    obtain ⟨rfl, -⟩ := hd
    obtain ⟨-, rfl, -⟩ | ⟨-, rfl, -⟩ | ⟨-, rfl, -⟩ := hs <;> decide
  exact ⟨rfl, h, rfl, chainedSynonyms.records_synonymsWrittenOut h, rfl⟩

end KnittingPattern
