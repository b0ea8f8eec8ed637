import KnittingPattern.Proofs.NestedLayout

/-! # Where rows stand

A row of a pattern stands in groups, and behind other rows and groups.  Its context is all of that.
Each state of a pattern is a row in a context, with the descriptions that the records before the
row have left.  Main theorem: `Compilation.exists_context`. -/

namespace KnittingPattern

namespace Nested

/-- Rows and groups: each row holds one content record, and groups hold rows and groups. -/
def OfRows : Nested → Prop
  | nil => True
  | content _ _ => False
  | scope .row _ _ body rest => (∃ c, body = content c nil) ∧ rest.OfRows
  | scope .group _ _ body rest => body.OfRows ∧ rest.OfRows

theorem startBlock_notMem (x : Nested) (desc : List String) : .startBlock desc ∉ x.records := by
  induction x with
  | nil => simp [records]
  | content c rest ih => simpa [records] using ih
  | scope s lines args body rest ihb ihr =>
    cases s <;> simp [records, Scope.opening, Scope.ending, ihb, ihr]

theorem descAfter_append (x y : Nested) (d : Descriptions) :
    (x.append y).descAfter d = y.descAfter (x.descAfter d) := by
  induction x generalizing d with
  | nil => rfl
  | content c rest ih => exact ih d
  | scope s desc args body rest _ ih => exact ih _

end Nested

/-- The records of statements, if no block is among them. -/
theorem Record.Statements.exists_ofRows {rs : List Record} (h : Statements rs)
    (hb : ∀ desc, .startBlock desc ∉ rs) : ∃ x : Nested, x.OfRows ∧ x.records = rs := by
  induction h with
  | nil => exact ⟨.nil, trivial, rfl⟩
  | @row desc args c rest _ _ ih =>
    obtain ⟨x, hx, hr⟩ := ih fun desc => by simpa using hb desc
    refine ⟨.scope .row desc args (.content c .nil) x, ⟨⟨c, rfl⟩, hx⟩, ?_⟩
    simp [Nested.records, Scope.opening, Scope.ending, hr]
  | @group desc args body rest _ _ ihb ihr =>
    simp only [List.mem_cons, List.mem_append, not_or] at hb
    obtain ⟨x, hx, hxr⟩ := ihb fun desc => (hb desc).2.1
    obtain ⟨y, hy, hyr⟩ := ihr fun desc => (hb desc).2.2.2
    refine ⟨.scope .group desc args x y, ⟨hx, hy⟩, ?_⟩
    simp [Nested.records, Scope.opening, Scope.ending, hxr, hyr]
  | block desc _ _ _ _ => exact absurd List.mem_cons_self (hb desc)

/-- A pattern that is read and compiled is rows and groups, and its states are their unrolling. -/
theorem Compilation.exists_ofRows {texts : List String} {b : Block} {ss : List State}
    (h : Pattern.ofSources texts = .ok b) (hs : states b = .ok ss) :
    ∃ x : Nested, x.OfRows ∧
      b.records = .ok (.startBlock b.desc.lines :: (x.records ++ [.endBlock])) ∧
      ss = x.unroll (fun _ => none) ⟨"\n".intercalate b.desc.lines, "", ""⟩ := by
  obtain ⟨rs, hr, hss⟩ := states_eq_ok_iff.mp hs
  obtain ⟨y, rfl⟩ := Block.exists_nested h hr
  obtain ⟨x, hx, hxy⟩ : ∃ x : Nested, x.OfRows ∧ x.records = y.records := by
    have hb := (b.records_unroll hr).1
    generalize hrs : Record.startBlock b.desc.lines :: (y.records ++ [.endBlock]) = rs at hb
    cases hb with
    | intro desc hbody =>
      obtain ⟨-, hbody'⟩ := List.cons.inj hrs
      rw [← List.append_cancel_right hbody'] at hbody
      exact hbody.exists_ofRows y.startBlock_notMem
  refine ⟨x, hx, by rw [hxy, hr], ?_⟩
  rw [← hxy, State.ofRecords_nested] at hss
  exact (Except.ok.inj hss).symm

/-- What stands before a place among nested records: the scopes around it, each with what stands
before it within the next scope. -/
inductive Context where
  | start (earlier : Nested)
  | within (outer : Context) (kind : Scope) (desc args : List String) (earlier : Nested)

namespace Context

/-- The place behind more records. -/
def push (y : Nested) : Context → Context
  | start earlier => start (earlier.append y)
  | within outer s desc args earlier => within outer s desc args (earlier.append y)

/-- The records before the place. -/
def records : Context → List Record
  | start earlier => earlier.records
  | within outer s desc args earlier => outer.records ++ s.opening desc args :: earlier.records

/-- The descriptions that the records before the place have left, with `d` at the start. -/
def descAt (d : Descriptions) : Context → Descriptions
  | start earlier => earlier.descAfter d
  | within outer s desc _ earlier => earlier.descAfter ((outer.descAt d).enter s desc)

/-- The place is in groups and in no row. -/
def InGroups : Context → Prop
  | start _ => True
  | within outer s _ _ _ => s = .group ∧ outer.InGroups

variable {ctx : Context}

theorem records_push (ctx : Context) (y : Nested) :
    (ctx.push y).records = ctx.records ++ y.records := by
  cases ctx <;> simp [push, records, Nested.records_append]

theorem descAt_push (ctx : Context) (y : Nested) (d : Descriptions) :
    (ctx.push y).descAt d = y.descAfter (ctx.descAt d) := by
  cases ctx <;> simp [push, descAt, Nested.descAfter_append]

theorem InGroups.push (h : ctx.InGroups) (y : Nested) : (ctx.push y).InGroups := by
  cases ctx <;> exact h

end Context

/-- A state of some records is a row among them, in its context. -/
structure Context.Places (d : Descriptions) (rs : List Record) (s : State) (outer : Context)
    (desc args : List String) (c : Content) : Prop where
  inGroups : outer.InGroups
  records : ∃ after, rs = outer.records ++ .startRow desc args :: .content c :: .endRow :: after
  row : c.row ≠ []
  state : s = { State.ofRow ((outer.descAt d).enter .row desc) c.row c.args with
    groupRepeat := s.groupRepeat, rowRepeat := s.rowRepeat }

open Context (Places)

private theorem mem_rounds {x : Nested} {args : List String} {rounds : Scope → Option Repeat}
    {s : Scope} {d : Descriptions} {st : State}
    (h : st ∈ (match repeatCount? args with
      | some n => (List.range n).flatMap fun i =>
          x.unroll (Function.update rounds s (some ⟨i + 1, n⟩)) d
      | none => x.unroll rounds d)) : ∃ rounds', st ∈ x.unroll rounds' d := by
  split at h
  · obtain ⟨i, -, h⟩ := List.mem_flatMap.mp h
    exact ⟨_, h⟩
  · exact ⟨_, h⟩

/-- The states of rows and groups behind a context are rows in contexts that go on from it. -/
theorem Nested.OfRows.exists_places {x : Nested} (hx : x.OfRows) {ctx : Context}
    (hctx : ctx.InGroups) {rounds : Scope → Option Repeat} {d : Descriptions} {st : State}
    (hs : st ∈ x.unroll rounds (ctx.descAt d)) (tail : List Record) :
    ∃ outer desc args c, Places d (ctx.records ++ (x.records ++ tail)) st outer desc args c := by
  induction x generalizing ctx rounds tail with
  | nil => cases hs
  | content c rest => exact hx.elim
  | scope s desc args body rest ihb ihr =>
    rcases List.mem_append.mp hs with h | h
    · obtain ⟨rounds', h⟩ := mem_rounds h
      cases s with
      | row =>
        obtain ⟨⟨c, rfl⟩, -⟩ := hx
        have hc : c.row ≠ [] := by
          rintro hc
          simp [unroll, hc] at h
        have hst := by simpa [unroll, hc] using h
        refine ⟨ctx, desc, args, c, hctx, ⟨rest.records ++ tail, ?_⟩, hc, by rw [hst]⟩
        simp [records, Scope.opening, Scope.ending]
      | group =>
        have hg : (ctx.within .group desc args .nil).InGroups := ⟨rfl, hctx⟩
        have := ihb hx.1 hg h (.endGroup :: (rest.records ++ tail))
        simpa [Context.records, records, Scope.ending] using this
    · have hrest : rest.OfRows := by cases s <;> exact hx.2
      have hdesc : (ctx.push (scope s desc args body nil)).descAt d =
          body.descAfter ((ctx.descAt d).enter s desc) := by
        simp [Context.descAt_push, descAfter]
      have := ihr hrest (hctx.push (scope s desc args body nil)) (hdesc ▸ h) tail
      simpa [Context.records_push, records] using this

/-- A state of a compiled pattern is a row of the pattern's records, in its context. -/
theorem Compilation.exists_context {texts : List String} {b : Block} {ss : List State}
    (h : Pattern.ofSources texts = .ok b) (hs : states b = .ok ss) {s : State} (hm : s ∈ ss) :
    ∃ rs outer desc args c, b.records = .ok (.startBlock b.desc.lines :: rs) ∧
      Places ⟨"\n".intercalate b.desc.lines, "", ""⟩ rs s outer desc args c := by
  obtain ⟨x, hx, hr, rfl⟩ := exists_ofRows h hs
  have hctx : (Context.start .nil).InGroups := trivial
  obtain ⟨outer, desc, args, c, hp⟩ := hx.exists_places hctx hm [.endBlock]
  exact ⟨_, outer, desc, args, c, hr, hp⟩

end KnittingPattern
