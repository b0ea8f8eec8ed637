import KnittingPattern.Proofs.NestedLayout
import KnittingPattern.Proofs.WrittenNumbers

/-! # Rows with a count

The count of a row stands at each part of the row that groups leave.  Each part is repeated for
itself, and a group between the parts comes once.  So a count repeats a row as a whole if no group
cuts it, and only then in general.  Main theorem: `Layout.bring_counted`. -/

namespace KnittingPattern

/-- What a computation whose result is changed and that succeeds has computed. -/
theorem exists_of_map_ok {ε α β : Type} {x : Except ε α} {f : α → β} {b : β}
    (h : x.map f = .ok b) : ∃ a, x = .ok a ∧ b = f a := by
  cases x with
  | error e => cases h
  | ok a => exact ⟨a, rfl, (Except.ok.inj h).symm⟩

namespace Nested

/-- The rows of the states, which do not depend on the rounds. -/
def rows : Nested → List (List String)
  | nil => []
  | content c rest => (if c.row.isEmpty then [] else [c.row]) ++ rest.rows
  | scope _ _ args body rest =>
    (List.replicate ((repeatCount? args).getD 1) body.rows).flatten ++ rest.rows

theorem map_row_unroll (x : Nested) (rounds : Scope → Option Repeat) (d : Descriptions) :
    (x.unroll rounds d).map State.row = x.rows := by
  induction x generalizing rounds d with
  | nil => rfl
  | content c rest ih =>
    by_cases hc : c.row.isEmpty <;> simp [unroll, rows, hc, ih, State.ofRow]
  | scope s desc args body rest ihb ihr =>
    simp only [unroll, rows, List.map_append, ihr]
    cases repeatCount? args with
    | none => simp [ihb]
    | some n =>
      simp only [List.map_flatMap, ihb]
      simp [List.flatMap_def, List.map_const']

theorem rows_append (x y : Nested) : (x.append y).rows = x.rows ++ y.rows := by
  induction x with
  | nil => rfl
  | content c rest ih => simp [append, rows, ih]
  | scope s desc args body rest _ ih => simp [append, rows, ih]

end Nested

namespace Record

/-- Wherever records stand in a pattern, the states that come from them have these rows. -/
def Bring (rs : List Record) (rows : List (List String)) : Prop :=
  ∃ x : Nested, x.records = rs ∧ ∀ rounds d, (x.unroll rounds d).map State.row = rows

namespace Bring

variable {rs ts : List Record} {rows others : List (List String)}

theorem of_rows {x : Nested} (hx : x.records = rs) (hr : x.rows = rows) : Bring rs rows :=
  ⟨x, hx, fun rounds d => (x.map_row_unroll rounds d).trans hr⟩

theorem exists_rows (h : Bring rs rows) : ∃ x : Nested, x.records = rs ∧ x.rows = rows := by
  obtain ⟨x, hx, hr⟩ := h
  exact ⟨x, hx, (x.map_row_unroll (fun _ => none) .none).symm.trans (hr _ _)⟩

theorem append (h : Bring rs rows) (ht : Bring ts others) : Bring (rs ++ ts) (rows ++ others) := by
  obtain ⟨x, rfl, rfl⟩ := h.exists_rows
  obtain ⟨y, rfl, rfl⟩ := ht.exists_rows
  exact of_rows (x.records_append y) (x.rows_append y)

/-- The records decide the rows. -/
theorem unique (h : Bring rs rows) (h' : Bring rs others) : rows = others := by
  obtain ⟨x, rfl, hx⟩ := h
  obtain ⟨y, hxy, hy⟩ := h'
  have hstates := State.ofRecords_nested [] x []
  rw [← hxy, State.ofRecords_nested, Except.ok.injEq] at hstates
  rw [← hx (fun _ => none), ← hy (fun _ => none), hstates]

end Bring

theorem Nests.exists_bring {rs : List Record} : Nests rs → ∃ rows, Bring rs rows
  | ⟨x, hx⟩ => ⟨x.rows, .of_rows hx rfl⟩

end Record

open Record (Bring)

/-- A row that groups cut: its part before the first group, and for each group the rows of the
group's states with the part of the row behind it. -/
structure Cuts where
  first : List String
  later : List (List (List String) × List String)

namespace Cuts

/-- One part, repeated; one without fragments is no row. -/
def repeated (n : Nat) (part : List String) : List (List String) :=
  if part.isEmpty then [] else List.replicate n part

/-- The rows of the states if each part is repeated for itself. -/
def rows (n : Nat) (c : Cuts) : List (List String) :=
  repeated n c.first ++ c.later.flatMap fun p => p.1 ++ repeated n p.2

/-- A row that is not cut is repeated as a whole. -/
theorem rows_eq_of_later {c : Cuts} (h : c.later = []) (n : Nat) :
    c.rows n = (List.replicate n (c.rows 1)).flatten := by
  by_cases hf : c.first.isEmpty <;> simp [rows, repeated, h, hf]

end Cuts

namespace Piece

theorem bring_rowRecords {desc args : List String} {n : Nat} (hn : repeatCount? args = some n)
    (c : Content) : Bring (rowRecords desc args c) (Cuts.repeated n c.row) := by
  unfold rowRecords
  split
  · rename_i hc
    have hrow : c.row.isEmpty := (Bool.and_eq_true_iff.mp hc).2
    exact .of_rows (x := .nil) rfl (by simp [Nested.rows, Cuts.repeated, hrow])
  · refine .of_rows (x := .scope .row desc args (.content c .nil) .nil) rfl ?_
    by_cases hrow : c.row.isEmpty <;> simp [Nested.rows, Cuts.repeated, hrow, hn]

/-- The pieces of a row say how groups cut it, whatever the arguments of the row are. -/
theorem exists_cuts {ps : List Piece} (h : ∀ p ∈ ps, p.Nested) (row : List String) :
    ∃ cuts : Cuts, ((∀ rs, .records rs ∉ ps) → cuts.later = []) ∧
      ∀ desc args own texts n, repeatCount? args = some n →
        Bring (assemble desc args ⟨own, texts, row⟩ ps) (cuts.rows n) := by
  induction ps generalizing row with
  | nil =>
    refine ⟨⟨row, []⟩, fun _ => rfl, fun _ _ _ _ _ hn => ?_⟩
    simpa [Cuts.rows, assemble] using bring_rowRecords hn _
  | cons p ps ih =>
    obtain ⟨hp, hps⟩ := List.forall_mem_cons.mp h
    cases p with
    | fragment f =>
      obtain ⟨cuts, hl, hc⟩ := ih hps (row ++ [f])
      exact ⟨cuts, fun h => hl (by simpa using h), fun _ _ _ _ _ hn => hc _ _ _ _ _ hn⟩
    | args ts =>
      obtain ⟨cuts, hl, hc⟩ := ih hps row
      exact ⟨cuts, fun h => hl (by simpa using h), fun _ _ _ _ _ hn => hc _ _ _ _ _ hn⟩
    | records rs =>
      obtain ⟨texts, ts, rfl, hts⟩ := hp
      obtain ⟨group, hg⟩ := (hts.groupRecords [] texts).exists_bring
      obtain ⟨cuts, -, hc⟩ := ih hps []
      refine ⟨⟨row, (group, cuts.first) :: cuts.later⟩,
        fun h => absurd List.mem_cons_self (h _), fun desc args own texts n hn => ?_⟩
      have hrest := hg.append (hc desc args [] [] n hn)
      simpa [Cuts.rows, assemble, Content.empty] using (bring_rowRecords hn _).append hrest

theorem mem_assemble {desc args : List String} {c : Content} {ps : List Piece} {rs : List Record}
    {r : Record} (hp : .records rs ∈ ps) (hr : r ∈ rs) : r ∈ assemble desc args c ps := by
  induction ps generalizing c with
  | nil => cases hp
  | cons p ps ih =>
    rcases List.mem_cons.mp hp with rfl | hps
    · simp [assemble, hr]
    · cases p <;> simp [assemble, ih hps]

end Piece

/-- A count as it stands behind a row. -/
def Expr.count (position : Position) (n : Nat) : Expr := .size ⟨position, .whole n, .count, false⟩

theorem Brackets.texts_count (names : Names) (position : Position) (n : Nat) :
    texts names [Expr.count position n] = [toString n] := by
  have hm : Measure.count == Measure.toEnd ↔ False := by decide
  simp [texts, Expr.count, Expr.text, Size.text, Size.isToEnd, hm, Amount.text, Measure.mark]
  rfl

namespace Layout

/-- A row statement that has arguments is no name. -/
theorem loneRow?_cons (names : Names) (es : List Expr) (arg : Expr) (args : List Expr) :
    loneRow? names es (arg :: args) = none := by
  have hl : loneName? es (arg :: args) = none := by
    unfold loneName?
    split
    · contradiction
    · contradiction
    · rfl
  simp [loneRow?, hl]

theorem statement_count (p : Place) (es : List Expr) (position : Position) (n : Nat)
    (desc : Description) : statement p (.row es [Expr.count position n] desc) =
      (elements p false es).map (statementRecords desc [toString n]) := by
  simp only [statement, loneRow?_cons, Brackets.texts_count]
  rfl

/-- A name for a row with a count is that row within the definition. -/
theorem statement_definition {p : Place} {id : Identifier} {es : List Expr} {position : Position}
    {n : Nat} (hd : p.names.definition? id.name = some (.row es [Expr.count position n]))
    (place : Position) (desc : Description) : statement p (.row [.stitch place id []] [] desc) =
      (p.expand false id (.row es [])).map (statementRecords desc [toString n]) := by
  have hl : loneRow? p.names [.stitch place id []] [] =
      some (id, es, [Expr.count position n]) := by
    simp [loneRow?, loneName?, hd]
  simp only [statement, hl, Brackets.texts_count]
  rfl

/-- A row statement with a count, and the same with another count.  The count stands behind the row,
or behind the row that the statement is the name of. -/
inductive Recounted (n m : Nat) : Names → Stmt → Names → Stmt → Prop where
  | row {names : Names} {es : List Expr} {position : Position} {desc : Description} :
      Recounted n m names (.row es [Expr.count position n] desc)
        names (.row es [Expr.count position m] desc)
  | definition {names names' : Names} {id : Identifier} {es : List Expr}
      {place position : Position} {desc : Description} (hs : names.synonyms = names'.synonyms)
      (ho : ∀ other, other ≠ id.name → names.definition? other = names'.definition? other)
      (hd : names.definition? id.name = some (.row es [Expr.count position n]))
      (hd' : names'.definition? id.name = some (.row es [Expr.count position m])) :
      Recounted n m names (.row [.stitch place id []] [] desc)
        names' (.row [.stitch place id []] [] desc)

/-- Both statements are made of the same pieces. -/
theorem Recounted.exists_pieces {n m : Nat} {names names' : Names} {s s' : Stmt}
    (hc : Recounted n m names s names' s') (hn : names.InGrammar) (hs : s.isLine true)
    {within : List String} {unused : Nat} {rs : List Record}
    (h : statement ⟨names, within, expand names unused within⟩ s = .ok rs) :
    ∃ ps : List Piece, (∀ p ∈ ps, p.Nested) ∧
      rs = statementRecords s.desc [toString n] ps ∧
      statement ⟨names', within, expand names' unused within⟩ s' =
        .ok (statementRecords s.desc [toString m] ps) := by
  have hp := expand_nests hn unused within
  cases hc with
  | row =>
    simp only [Stmt.isLine, Bool.and_eq_true] at hs
    rw [statement_count] at h
    obtain ⟨ps, hps, rfl⟩ := exists_of_map_ok h
    exact ⟨ps, elements_nested hp hn hs.1 hps, rfl, by rw [statement_count, hps]; rfl⟩
  | definition hsyn ho hd hd' =>
    rename_i id es place position desc
    rw [statement_definition hd] at h
    obtain ⟨ps, hps, rfl⟩ := exists_of_map_ok h
    refine ⟨ps, expand_row_nested hp hn hd hps, rfl, ?_⟩
    have hexpand : expand names' unused within false id (.row es []) =
        expand names unused within false id (.row es []) := by
      cases unused with
      | zero => simp only [expand]
      | succ unused =>
        have hr : Redefined id.name names names' := ⟨hsyn, ho, ⟨_, _, _, hd⟩, ⟨_, _, _, hd'⟩⟩
        simp only [expand]
        rw [definitionPieces_alike (expand_redefined hr unused List.mem_cons_self)]
    rw [statement_definition hd']
    exact congrArg (Except.map _) (hexpand.trans hps)

/-- What the count of a row repeats: each part that groups leave of the row, for itself.  A row
that no group cuts is repeated as a whole. -/
theorem bring_counted {n m : Nat} {names names' : Names} {s s' : Stmt}
    (hc : Recounted n m names s names' s') (hn : names.InGrammar) (hs : s.isLine true)
    (hn1 : 1 ≤ n) (hm1 : 1 ≤ m) (hn64 : n < Nat.pow 2 64) (hm64 : m < Nat.pow 2 64)
    {within : List String} {unused : Nat} {rs : List Record}
    (h : statement ⟨names, within, expand names unused within⟩ s = .ok rs) :
    ∃ cuts : Cuts, ∃ rs', statement ⟨names', within, expand names' unused within⟩ s' = .ok rs' ∧
      Bring rs (cuts.rows n) ∧ Bring rs' (cuts.rows m) ∧
      ((∀ desc args, .startGroup desc args ∉ rs) →
        cuts.rows n = (List.replicate n (cuts.rows 1)).flatten) := by
  obtain ⟨ps, hps, rfl, h'⟩ := hc.exists_pieces hn hs h
  obtain ⟨cuts, hlater, hcuts⟩ := Piece.exists_cuts hps []
  refine ⟨cuts, _, h', hcuts _ _ _ _ _ (repeatCount?_toString hn1 hn64),
    hcuts _ _ _ _ _ (repeatCount?_toString hm1 hm64), fun hg => ?_⟩
  refine Cuts.rows_eq_of_later (hlater fun rs hrs => ?_) n
  obtain ⟨texts, ts, rfl, -⟩ := hps _ hrs
  exact hg _ _ (Piece.mem_assemble (List.mem_cons_of_mem _ hrs) List.mem_cons_self)

/-- A name for a row with a count that a group cuts. -/
def cutRepeat (n : Nat) : List Stmt :=
  let stitch (name : String) : Expr := .stitch .start ⟨.start, name⟩ []
  [.define ⟨.start, "g"⟩ (.group .start .start [] [.row [stitch "yo"] [] .none]) .none,
    .define ⟨.start, "m"⟩ (.row [stitch "k", stitch "g", stitch "p"] [Expr.count .start n]) .none,
    .row [stitch "m"] [] .none]

theorem bring_counted_cutRepeat :
    let names (n : Nat) := Names.ofStmts (cutRepeat n)
    let s : Stmt := .row [.stitch .start ⟨.start, "m"⟩ []] [] .none
    Recounted 2 1 (names 2) s (names 1) s ∧ (names 2).InGrammar ∧
    (∃ rs, statement ⟨names 2, [], expand (names 2) 2 []⟩ s = .ok rs ∧
      ∃ cuts : Cuts, ∃ rs', statement ⟨names 1, [], expand (names 1) 2 []⟩ s = .ok rs' ∧
        Bring rs (cuts.rows 2) ∧ Bring rs' (cuts.rows 1) ∧
        ((∀ desc args, .startGroup desc args ∉ rs) →
          cuts.rows 2 = (List.replicate 2 (cuts.rows 1)).flatten)) := by
  intro names s
  have ho (other : String) (h : other ≠ "m") :
      (names 2).definition? other = (names 1).definition? other := by
    simp [names, cutRepeat, Names.ofStmts, Names.ofStmt, Names.ofExpr, Names.ofExprs, Names.append,
      Names.none, Names.definition?, Names.last?, Ne.symm h]
  have hc : Recounted 2 1 (names 2) s (names 1) s := .definition rfl ho rfl rfl
  have hn : (names 2).InGrammar := ⟨by decide, by decide⟩
  have h : ∃ rs, statement ⟨names 2, [], expand (names 2) 2 []⟩ s = .ok rs := ⟨_, rfl⟩
  obtain ⟨rs, h⟩ := h
  exact ⟨hc, hn, rs, h,
    bring_counted hc hn (by decide) (by decide) (by decide) (by decide) (by decide) h⟩

end Layout

/-- A count repeats the parts that a group leaves of its row, and not the row; a count around a
group alone repeats nothing. -/
theorem Compilation.rows_cut_by_group :
    let rows (text : String) := (Pattern.ofSources [text]).toOption.bind fun b =>
      (Compilation.states b).toOption.map (List.map State.row)
    let twice (rs : Option (List (List String))) := rs.map fun rs => (List.replicate 2 rs).flatten
    let one := rows "g = \x7b\nyo\n\x7d\n\x7bk g p\x7d(1)\n"
    let two := rows "g = \x7b\nyo\n\x7d\n\x7bk g p\x7d(2)\n"
    let groupOnce := rows "g = \x7b\nyo\n\x7d\n\x7bg\x7d(1)\n"
    let groupTwice := rows "g = \x7b\nyo\n\x7d\n\x7bg\x7d(2)\n"
    one = some [["k"], ["yo"], ["p"]] ∧ two = some [["k"], ["k"], ["yo"], ["p"], ["p"]] ∧
      two ≠ twice one ∧
      groupOnce = some [["yo"]] ∧ groupTwice = some [["yo"]] ∧ groupTwice ≠ twice groupOnce := by
  decide +kernel

end KnittingPattern
