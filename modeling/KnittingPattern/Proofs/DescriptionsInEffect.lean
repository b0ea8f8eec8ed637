import KnittingPattern.Proofs.DescriptionSources
import KnittingPattern.Proofs.RowContexts

/-! # The descriptions in effect where a row stands

A description stays in effect when its group or its row has ended, until the next one of its kind
takes its place.  So a row has the description of its own statement, if that has one, and the
description of the innermost group around it that has one, if no other such group has ended since
that one started.  Main theorem: `Compilation.states_described`. -/

namespace KnittingPattern

namespace Descriptions

def get (d : Descriptions) : Scope → String
  | .group => d.group
  | .row => d.row

theorem block_enter (d : Descriptions) (s : Scope) (lines : List String) :
    (d.enter s lines).block = d.block := by
  unfold enter
  split
  · rfl
  · cases s <;> rfl

/-- A description that has lines replaces the one of its kind. -/
theorem get_enter (d : Descriptions) (s k : Scope) (lines : List String) :
    (d.enter s lines).get k = if s = k ∧ lines ≠ [] then "\n".intercalate lines else d.get k := by
  cases lines with
  | nil => simp [enter]
  | cons l ls => cases s <;> cases k <;> simp [enter, get]

/-- The text of the last of some descriptions; without any, the one that is in effect before. -/
def latest (old : String) (ds : List (List String)) : String :=
  (ds.getLast?.map "\n".intercalate).getD old

theorem latest_append (old : String) (ds es : List (List String)) :
    latest old (ds ++ es) = latest (latest old ds) es := by
  cases h : es.getLast? <;> simp [latest, List.getLast?_append, h]

theorem get_enter_eq_latest (d : Descriptions) (s k : Scope) (lines : List String) :
    (d.enter s lines).get k = latest (d.get k) (if s = k ∧ lines ≠ [] then [lines] else []) := by
  rw [get_enter]
  split <;> rfl

end Descriptions

open Descriptions (latest latest_append)

namespace Nested

/-- The descriptions that scopes of one kind have, in their order. -/
def descs (k : Scope) : Nested → List (List String)
  | nil => []
  | content _ rest => rest.descs k
  | scope s desc _ body rest =>
    (if s = k ∧ desc ≠ [] then [desc] else []) ++ (body.descs k ++ rest.descs k)

theorem block_descAfter (x : Nested) (d : Descriptions) : (x.descAfter d).block = d.block := by
  induction x generalizing d with
  | nil => rfl
  | content c rest ih => exact ih d
  | scope s desc args body rest ihb ihr => rw [descAfter, ihr, ihb, d.block_enter]

theorem exists_opening {x : Nested} {k : Scope} {lines : List String} (h : lines ∈ x.descs k) :
    lines ≠ [] ∧ ∃ args, k.opening lines args ∈ x.records := by
  induction x with
  | nil => cases h
  | content c rest ih =>
    obtain ⟨hne, args, hm⟩ := ih h
    exact ⟨hne, args, List.mem_cons_of_mem _ hm⟩
  | scope s desc args body rest ihb ihr =>
    rw [descs, List.mem_append, List.mem_append] at h
    rcases h with h | h | h
    · by_cases hs : s = k ∧ desc ≠ []
      · obtain ⟨rfl, hne⟩ := hs
        obtain rfl : lines = desc := by simpa [hne] using h
        exact ⟨hne, args, List.mem_cons_self⟩
      · simp [hs] at h
    · obtain ⟨hne, texts, hm⟩ := ihb h
      exact ⟨hne, texts, by simp [records, hm]⟩
    · obtain ⟨hne, texts, hm⟩ := ihr h
      exact ⟨hne, texts, by simp [records, hm]⟩

/-- The last description is the one that is left. -/
theorem get_descAfter (x : Nested) (d : Descriptions) (k : Scope) :
    (x.descAfter d).get k = latest (d.get k) (x.descs k) := by
  induction x generalizing d with
  | nil => rfl
  | content c rest ih => exact ih d
  | scope s desc args body rest ihb ihr =>
    rw [descAfter, ihr, ihb, d.get_enter_eq_latest, descs, latest_append, latest_append]

end Nested

namespace Context

/-- The description of the innermost scope of one kind around a place that has one; else none. -/
def around (k : Scope) : Context → List String
  | start _ => []
  | within outer s desc _ _ => if s = k ∧ desc ≠ [] then desc else outer.around k

/-- The descriptions of the scopes of one kind that have ended since then. -/
def ended (k : Scope) : Context → List (List String)
  | start earlier => earlier.descs k
  | within outer s desc _ earlier =>
    (if s = k ∧ desc ≠ [] then [] else outer.ended k) ++ earlier.descs k

theorem exists_opening_of_around {ctx : Context} {k : Scope} (h : ctx.around k ≠ []) :
    ∃ args, k.opening (ctx.around k) args ∈ ctx.records := by
  induction ctx with
  | start earlier => exact absurd rfl h
  | within outer s desc args earlier ih =>
    by_cases hs : s = k ∧ desc ≠ []
    · obtain ⟨rfl, hne⟩ := hs
      exact ⟨args, by simp [around, hne, records]⟩
    · rw [around, if_neg hs] at h ⊢
      obtain ⟨texts, hm⟩ := ih h
      exact ⟨texts, List.mem_append_left _ hm⟩

theorem exists_opening_of_ended {ctx : Context} {k : Scope} {lines : List String}
    (h : lines ∈ ctx.ended k) : lines ≠ [] ∧ ∃ args, k.opening lines args ∈ ctx.records := by
  induction ctx with
  | start earlier => exact Nested.exists_opening h
  | within outer s desc args earlier ih =>
    rcases List.mem_append.mp h with h | h
    · by_cases hs : s = k ∧ desc ≠ []
      · simp [hs] at h
      · rw [if_neg hs] at h
        obtain ⟨hne, texts, hm⟩ := ih h
        exact ⟨hne, texts, List.mem_append_left _ hm⟩
    · obtain ⟨hne, texts, hm⟩ := Nested.exists_opening h
      exact ⟨hne, texts, by simp [records, hm]⟩

theorem block_descAt (ctx : Context) (d : Descriptions) : (ctx.descAt d).block = d.block := by
  induction ctx with
  | start earlier => exact earlier.block_descAfter d
  | within outer s desc args earlier ih =>
    rw [descAt, earlier.block_descAfter, Descriptions.block_enter, ih]

/-- The description in effect is the last one that has ended, if there is one. -/
theorem get_descAt (ctx : Context) (k : Scope) {d : Descriptions} (hd : d.get k = "") :
    (ctx.descAt d).get k = latest ("\n".intercalate (ctx.around k)) (ctx.ended k) := by
  induction ctx with
  | start earlier => rw [descAt, earlier.get_descAfter, hd, ended, around]; rfl
  | within outer s desc args earlier ih =>
    rw [descAt, earlier.get_descAfter, Descriptions.get_enter, ih, ended, around, latest_append]
    split <;> rfl

theorem InGroups.around_row {ctx : Context} (h : ctx.InGroups) : ctx.around .row = [] := by
  induction ctx with
  | start earlier => rfl
  | within outer s desc args earlier ih =>
    obtain ⟨rfl, h⟩ := h
    simp [around, ih h]

end Context

/-- The descriptions of a state, by where its row stands and the description of the row.  They are
those of statements of the pattern. -/
structure Context.Describes (b : Block) (outer : Context) (desc : List String) (s : State) : Prop where
  block : s.desc.block = "\n".intercalate b.desc.lines
  group : s.desc.group = latest ("\n".intercalate (outer.around .group)) (outer.ended .group)
  row : s.desc.row =
    if desc ≠ [] then "\n".intercalate desc else latest "" (outer.ended .row)
  ofRow : b.DescribesRow desc
  ofRows : ∀ lines ∈ outer.ended .row, b.DescribesRow lines
  ofAround : outer.around .group ≠ [] → b.DescribesGroup (outer.around .group)
  ofGroups : ∀ lines ∈ outer.ended .group, b.DescribesGroup lines

namespace Context.Describes

variable {b : Block} {outer : Context} {desc : List String} {s : State}

/-- As long as none has ended, the description is that of the innermost group around that has one. -/
theorem group_of_ended_eq_nil (h : outer.Describes b desc s) (he : outer.ended .group = []) :
    s.desc.group = "\n".intercalate (outer.around .group) := by
  rw [h.group, he]
  rfl

theorem row_of_ne_nil (h : outer.Describes b desc s) (hd : desc ≠ []) :
    s.desc.row = "\n".intercalate desc :=
  h.row.trans (if_pos hd)

theorem row_of_ended_eq_nil (h : outer.Describes b desc s) (he : outer.ended .row = []) :
    s.desc.row = "\n".intercalate desc := by
  by_cases hd : desc = []
  · rw [h.row, he, hd]
    rfl
  · exact h.row_of_ne_nil hd

end Context.Describes

/-- The descriptions of a state of a compiled pattern.  A description that has ended counts before
those of the groups around, and behind that of the row itself.  If none has ended, a state has the
description of its row and that of the innermost group around it that has one. -/
theorem Compilation.states_described {texts : List String} {b : Block} {ss : List State}
    (h : Pattern.ofSources texts = .ok b) (hs : states b = .ok ss) {s : State} (hm : s ∈ ss) :
    ∃ (outer : Context) (desc args : List String) (c : Content) (after : List Record),
      outer.InGroups ∧
      b.records = .ok (.startBlock b.desc.lines ::
        (outer.records ++ .startRow desc args :: .content c :: .endRow :: after)) ∧
      s.row = c.row ∧ s.args = c.args ∧ outer.Describes b desc s ∧
      (outer.ended .group = [] → s.desc.group = "\n".intercalate (outer.around .group)) ∧
      (desc ≠ [] ∨ outer.ended .row = [] → s.desc.row = "\n".intercalate desc) := by
  obtain ⟨rs, outer, desc, args, c, hr, hp⟩ := exists_context h hs hm
  obtain ⟨after, rfl⟩ := hp.records
  let start : Descriptions := ⟨"\n".intercalate b.desc.lines, "", ""⟩
  have hdesc : s.desc = (outer.descAt start).enter .row desc := by
    rw [hp.state]
    rfl
  have hgroup : s.desc.group =
      latest ("\n".intercalate (outer.around .group)) (outer.ended .group) := by
    rw [hdesc, ← outer.get_descAt .group (d := start) rfl]
    simpa [Descriptions.get] using (outer.descAt start).get_enter .row .group desc
  have hrow : s.desc.row =
      if desc ≠ [] then "\n".intercalate desc else latest "" (outer.ended .row) := by
    have hout := outer.get_descAt .row (d := start) rfl
    rw [hp.inGroups.around_row] at hout
    have hin := (outer.descAt start).get_enter .row .row desc
    rw [hout] at hin
    rw [hdesc]
    simpa [Descriptions.get] using hin
  have hblock : s.desc.block = "\n".intercalate b.desc.lines := by
    rw [hdesc, Descriptions.block_enter, outer.block_descAt]
  have hbefore {r : Record} (hm : r ∈ outer.records) : r ∈ .startBlock b.desc.lines ::
      (outer.records ++ .startRow desc args :: .content c :: .endRow :: after) :=
    List.mem_cons_of_mem _ (List.mem_append_left _ hm)
  obtain ⟨hrows, hgroups⟩ := Block.records_described hr
  have hd : outer.Describes b desc s := by
    refine ⟨hblock, hgroup, hrow, hrows desc args (by simp), ?_, ?_, ?_⟩
    · intro lines hl
      obtain ⟨-, texts, ho⟩ := Context.exists_opening_of_ended hl
      exact hrows lines texts (hbefore ho)
    · intro hne
      obtain ⟨texts, ho⟩ := Context.exists_opening_of_around hne
      exact hgroups _ texts (hbefore ho) hne
    · intro lines hl
      obtain ⟨hne, texts, ho⟩ := Context.exists_opening_of_ended hl
      exact hgroups lines texts (hbefore ho) hne
  refine ⟨outer, desc, args, c, after, hp.inGroups, hr, ?_, ?_, hd, hd.group_of_ended_eq_nil, ?_⟩
  · rw [hp.state]
    rfl
  · rw [hp.state]
    rfl
  · intro h
    exact h.elim hd.row_of_ne_nil hd.row_of_ended_eq_nil

/-- A group with a description, of one row with a description, and a row behind the group. -/
def Block.afterGroup : Block :=
  let stitch (p : Position) (s : String) : Expr := .stitch p ⟨p, s⟩ []
  let brim : Description := ⟨[⟨⟨1, 1⟩, "; Brim"⟩]⟩
  let rib : Description := ⟨[⟨⟨3, 1⟩, "; Rib"⟩]⟩
  ⟨[.group ⟨2, 1⟩ ⟨5, 1⟩ [] [.row [stitch ⟨4, 1⟩ "k"] [] rib] brim,
    .row [stitch ⟨6, 1⟩ "p"] [] .none], ⟨1, 1⟩, ⟨7, 0⟩, .none⟩

theorem Compilation.states_described_afterGroup :
    let within := State.ofRow ⟨"", "Brim\n", "Rib\n"⟩ ["k"] []
    let behind := State.ofRow ⟨"", "Brim\n", "Rib\n"⟩ ["p"] []
    Pattern.ofSources ["; Brim\n\x7b\n; Rib\nk\n\x7d\np\n"] = .ok Block.afterGroup ∧
    states Block.afterGroup = .ok [within, behind] ∧
    ∃ (outer : Context) (desc : List String), outer.InGroups ∧
      outer.Describes Block.afterGroup desc behind := by
  intro within behind
  have h : Pattern.ofSources ["; Brim\n\x7b\n; Rib\nk\n\x7d\np\n"] = .ok Block.afterGroup := rfl
  have hs : states Block.afterGroup = .ok [within, behind] := rfl
  have hm : behind ∈ [within, behind] := by simp
  obtain ⟨outer, desc, -, -, -, hg, -, -, -, hd, -, -⟩ := states_described h hs hm
  exact ⟨h, hs, outer, desc, hg, hd⟩

/-- The row behind the group has no description and is in no group; its state has those of the group
before. -/
theorem Compilation.description_outlives_group :
    Pattern.ofSources ["; Brim\n\x7b\n; Rib\nk\n\x7d\np\n"] = .ok Block.afterGroup ∧
    Block.afterGroup.statements.getLast? =
      some (.row [.stitch ⟨6, 1⟩ ⟨⟨6, 1⟩, "p"⟩ []] [] .none) ∧
    ∃ s t : State, states Block.afterGroup = .ok [s, t] ∧ t.row = ["p"] ∧
      t.desc.group = "Brim\n" ∧ t.desc.group ≠ "" ∧ t.desc.row = "Rib\n" ∧ t.desc.row ≠ "" :=
  ⟨rfl, rfl, _, _, rfl, rfl, rfl, by decide, rfl, by decide⟩

end KnittingPattern
