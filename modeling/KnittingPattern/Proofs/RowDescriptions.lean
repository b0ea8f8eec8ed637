import KnittingPattern.Compilation
import KnittingPattern.Proofs.NestedLayout

/-! # What becomes of the description of a row

The description of a row statement stands at each part that groups leave of the row.  So a state
has it if the row has a fragment of its own.  A row of nothing but names for groups has none, and
its description is lost.  Main theorem: `Layout.description_shown`. -/

namespace KnittingPattern

namespace Nested

theorem unroll_append (x y : Nested) (rounds : Scope → Option Repeat) (d : Descriptions) :
    (x.append y).unroll rounds d = x.unroll rounds d ++ y.unroll rounds (x.descAfter d) := by
  induction x generalizing d with
  | nil => rfl
  | content c rest ih => simp [append, unroll, descAfter, ih]
  | scope s desc args body rest _ ih => simp [append, unroll, descAfter, ih]

end Nested

namespace Record

/-- Wherever records stand in a pattern, a state that comes from them has this row description. -/
def Show (rs : List Record) (text : String) : Prop :=
  ∃ x : Nested, x.records = rs ∧ ∀ rounds d, ∃ s ∈ x.unroll rounds d, s.desc.row = text

namespace Show

variable {rs ts : List Record} {text : String}

theorem append_left (h : Show rs text) (ht : Nests ts) : Show (rs ++ ts) text := by
  obtain ⟨x, rfl, hx⟩ := h
  obtain ⟨y, rfl⟩ := ht
  refine ⟨x.append y, x.records_append y, fun rounds d => ?_⟩
  obtain ⟨s, hs, hd⟩ := hx rounds d
  exact ⟨s, by simp [Nested.unroll_append, hs], hd⟩

theorem append_right (hr : Nests rs) (h : Show ts text) : Show (rs ++ ts) text := by
  obtain ⟨x, rfl⟩ := hr
  obtain ⟨y, rfl, hy⟩ := h
  refine ⟨x.append y, x.records_append y, fun rounds d => ?_⟩
  obtain ⟨s, hs, hd⟩ := hy rounds (x.descAfter d)
  exact ⟨s, by simp [Nested.unroll_append, hs], hd⟩

/-- A row that has fragments shows its description, in its first round if it has a count. -/
theorem rowRecords {desc : List String} (hd : desc ≠ []) (args : List String) {c : Content}
    (hc : c.row ≠ []) : Show (Piece.rowRecords desc args c) ("\n".intercalate desc) := by
  have hne : c.isEmpty = false := by simp [Content.isEmpty, hc]
  refine ⟨.scope .row desc args (.content c .nil) .nil, ?_, fun rounds d => ?_⟩
  · simp [Piece.rowRecords, hne, Nested.records, Scope.opening, Scope.ending]
  · have hrow : (d.enter .row desc).row = "\n".intercalate desc := by
      simp [Descriptions.enter, hd]
    cases hn : repeatCount? args with
    | none => simp [Nested.unroll, hn, hc, State.ofRow, hrow]
    | some n =>
      have hfirst : ∃ i, i < n := ⟨0, one_le_of_repeatCount? hn⟩
      simpa [Nested.unroll, hn, hc, State.ofRow, hrow] using hfirst

end Show
end Record

open Record (Show Nests)

namespace Piece

theorem nests_records {rs : List Record} (h : (Piece.records rs).Nested) : Nests rs := by
  obtain ⟨texts, ts, rfl, hts⟩ := h
  exact hts.groupRecords [] texts

/-- A row with a fragment, before it or among its pieces, shows its description. -/
theorem show_assemble {desc : List String} (hd : desc ≠ []) (args : List String) {ps : List Piece}
    (hp : ∀ p ∈ ps, p.Nested) {c : Content} (hf : c.row ≠ [] ∨ ∃ f, .fragment f ∈ ps) :
    Show (assemble desc args c ps) ("\n".intercalate desc) := by
  induction ps generalizing c with
  | nil => exact .rowRecords hd args (hf.resolve_right (by simp))
  | cons p ps ih =>
    obtain ⟨hfirst, hps⟩ := List.forall_mem_cons.mp hp
    cases p with
    | fragment f => exact ih hps (.inl (by simp [Content.addFragment]))
    | args ts => exact ih hps (hf.imp_right (by simp))
    | records rs =>
      by_cases hc : c.row = []
      · have hrest : ∃ f, .fragment f ∈ ps := by simpa [hc] using hf
        refine .append_right (.rowRecords desc args c) ?_
        exact .append_right (nests_records hfirst) (ih hps (.inr hrest))
      · refine .append_left (.rowRecords hd args hc) ?_
        exact (nests_records hfirst).append (nests_assemble desc args .empty hps)

/-- Without fragments and arguments no row is left, and no description. -/
theorem assemble_eq_of_bare {ps : List Piece} (hf : ∀ f, .fragment f ∉ ps)
    (ha : ∀ ts, .args ts ∈ ps → ts = []) (desc desc' args : List String) :
    assemble desc args .empty ps = assemble desc' args .empty ps := by
  induction ps with
  | nil => rfl
  | cons p ps ih =>
    have hrest := ih (fun f h => hf f (List.mem_cons_of_mem p h))
      fun ts h => ha ts (List.mem_cons_of_mem p h)
    cases p with
    | fragment f => exact absurd List.mem_cons_self (hf f)
    | args ts =>
      obtain rfl := ha ts List.mem_cons_self
      exact hrest
    | records rs => simp only [assemble, hrest]; rfl

end Piece

/-- An element of a row that gives it a fragment of its own: a stitch, a row, or a name for such. A
name for a group gives it none. -/
inductive Expr.Visible (names : Names) : Expr → Prop
  | stitch {position : Position} {name : Identifier} {args : List Expr}
    (hd : names.definition? name.name = none) : Visible names (.stitch position name args)
  | row {es args : List Expr} : Visible names (.row es args)
  | counted {position : Position} {name : Identifier} {args es args' : List Expr} {arg : Expr}
    (hd : names.definition? name.name = some (.row es (arg :: args'))) :
    Visible names (.stitch position name args)
  | uncounted {position : Position} {name : Identifier} {args es : List Expr} {e : Expr}
    (hd : names.definition? name.name = some (.row es [])) (he : e ∈ es) (h : Visible names e) :
    Visible names (.stitch position name args)

/-- An element of nothing but names for groups, none of them with arguments. -/
inductive Expr.Bare (names : Names) : Expr → Prop
  | group {position lbrace rbrace : Position} {name : Identifier} {args : List Expr}
    {lines : List Stmt} (hd : names.definition? name.name = some (.group lbrace rbrace args lines)) :
    Bare names (.stitch position name [])
  | uncounted {position : Position} {name : Identifier} {es : List Expr}
    (hd : names.definition? name.name = some (.row es [])) (h : ∀ e ∈ es, Bare names e) :
    Bare names (.stitch position name [])

namespace Layout

/-- Pieces without a fragment and without arguments. -/
def ArePlain (ps : List Piece) : Prop :=
  (∀ f, .fragment f ∉ ps) ∧ ∀ ts, .args ts ∈ ps → ts = []

/-- What elements give the row they are in: a fragment if one is visible, and nothing if all are
bare. -/
structure Gives (names : Names) (es : List Expr) (ps : List Piece) : Prop where
  visible : (∃ e ∈ es, e.Visible names) → ∃ f, .fragment f ∈ ps
  bare : (∀ e ∈ es, e.Bare names) → ArePlain ps

/-- What a definition gives the row it is used in. -/
def GivesAs (names : Names) (ps : List Piece) : Expr → Prop
  | .row es [] => Gives names es ps
  | .row _ (_ :: _) => ∃ f, .fragment f ∈ ps
  | _ => ArePlain ps

theorem Gives.cons {names : Names} {e : Expr} {es : List Expr} {ps qs : List Piece}
    (hp : Gives names [e] ps) (hq : Gives names es qs) : Gives names (e :: es) (ps ++ qs) where
  visible h := by
    obtain ⟨x, hx, hv⟩ := h
    rcases List.mem_cons.mp hx with rfl | hx
    · obtain ⟨f, hf⟩ := hp.visible ⟨x, List.mem_singleton_self x, hv⟩
      exact ⟨f, List.mem_append_left qs hf⟩
    · obtain ⟨f, hf⟩ := hq.visible ⟨x, hx, hv⟩
      exact ⟨f, List.mem_append_right ps hf⟩
  bare h := by
    obtain ⟨he, hes⟩ := List.forall_mem_cons.mp h
    obtain ⟨hpf, hpa⟩ := hp.bare (by simpa using he)
    obtain ⟨hqf, hqa⟩ := hq.bare hes
    exact ⟨by simp [hpf, hqf], fun ts hts => (List.mem_append.mp hts).elim (hpa ts) (hqa ts)⟩

/-- At a place, definitions give what they are to give. -/
def Place.Gives (p : Place) : Prop :=
  ∀ inline id d ps, d.isDefinition true → p.expand inline id d = .ok ps → GivesAs p.names ps d

section

variable {p : Place}

theorem element_gives (hp : p.Gives) (hn : p.names.InGrammar) {inline : Bool} {e : Expr}
    (he : e.isElement true) {ps : List Piece} (h : element p inline e = .ok ps) :
    Gives p.names [e] ps := by
  cases e with
  | stitch position name args =>
    simp only [element] at h
    split at h
    · rename_i d hd
      obtain ⟨qs, hqs, h⟩ := exists_of_bind_ok h
      cases h
      have hg := hp _ _ _ _ (hn.isDefinition hd) hqs
      refine ⟨fun hv => ?_, fun hb => ?_⟩
      · have hv : Expr.Visible p.names (.stitch position name args) := by simpa using hv
        suffices hf : ∃ f, .fragment f ∈ qs by simpa using hf
        cases hv with
        | stitch hd' => simp [hd] at hd'
        | counted hd' =>
          cases hd.symm.trans hd'
          exact hg
        | uncounted hd' he hv =>
          cases hd.symm.trans hd'
          exact Gives.visible hg ⟨_, he, hv⟩
      · have hb : Expr.Bare p.names (.stitch position name args) := by simpa using hb
        cases hb with
        | group hd' =>
          cases hd.symm.trans hd'
          have hg : ArePlain qs := hg
          simpa [ArePlain, Brackets.texts] using hg
        | uncounted hd' hes =>
          cases hd.symm.trans hd'
          have hg : ArePlain qs := Gives.bare hg hes
          simpa [ArePlain, Brackets.texts] using hg
    · rename_i hd
      cases h
      refine ⟨fun _ => ⟨_, List.mem_singleton_self _⟩, fun hb => ?_⟩
      have hb : Expr.Bare p.names (.stitch position name args) := by simpa using hb
      cases hb with
      | group hd' => simp [hd] at hd'
      | uncounted hd' _ => simp [hd] at hd'
  | row es args =>
    obtain ⟨qs, hqs, h⟩ := exists_of_bind_ok h
    cases h
    refine ⟨fun _ => ⟨_, List.mem_cons_self⟩, fun hb => ?_⟩
    have hb : Expr.Bare p.names (.row es args) := by simpa using hb
    cases hb
  | ident id => cases he
  | size s => cases he
  | group lbrace rbrace args lines => cases he

theorem elements_gives (hp : p.Gives) (hn : p.names.InGrammar) {inline : Bool} {es : List Expr}
    (he : Expr.areElements true es) {ps : List Piece} (h : elements p inline es = .ok ps) :
    Gives p.names es ps := by
  induction es generalizing ps with
  | nil =>
    cases h
    exact ⟨by simp, fun _ => ⟨by simp, by simp⟩⟩
  | cons e es ih =>
    simp only [Expr.areElements, Bool.and_eq_true] at he
    obtain ⟨qs, hqs, h⟩ := exists_of_bind_ok h
    obtain ⟨rs, hrs, h⟩ := exists_of_bind_ok h
    cases h
    exact (element_gives hp hn he.1 hqs).cons (ih he.2 hrs)

theorem definitionPieces_gives (hp : p.Gives) (hn : p.names.InGrammar) {inline : Bool} {d : Expr}
    (hd : d.isDefinition true) {ps : List Piece} (h : definitionPieces p inline d = .ok ps) :
    GivesAs p.names ps d := by
  cases d with
  | row es args =>
    simp only [Expr.isDefinition, Bool.and_eq_true] at hd
    cases args with
    | nil => exact elements_gives hp hn hd.1.2 h
    | cons arg args =>
      obtain ⟨qs, hqs, h⟩ := exists_of_bind_ok h
      cases h
      exact ⟨_, List.mem_cons_self⟩
  | group lbrace rbrace args lines =>
    simp only [definitionPieces, element] at h
    split at h
    · cases h
    · obtain ⟨rs, hrs, h⟩ := exists_of_bind_ok h
      cases h
      exact ⟨by simp, by simp⟩
  | ident id => cases hd
  | size s => cases hd
  | stitch position name args => cases hd

end

theorem expand_gives {names : Names} (hn : names.InGrammar) (unused : Nat) (within : List String) :
    Place.Gives ⟨names, within, expand names unused within⟩ :=
  expand_induction (Q := fun d ps => GivesAs names ps d)
    (fun w f hf _ _ _ hd h => @definitionPieces_gives ⟨names, w, f⟩ hf hn _ _ hd _ h) unused within

theorem show_statementRecords {desc : Description} (hd : desc.lines ≠ []) (args : List String)
    {ps : List Piece} (hp : ∀ p ∈ ps, p.Nested) (hf : ∃ f, .fragment f ∈ ps) :
    Show (statementRecords desc args ps) ("\n".intercalate desc.lines) := by
  have hargs : (Piece.args args).Nested := trivial
  refine Piece.show_assemble hd args (List.forall_mem_cons.mpr ⟨hargs, hp⟩) (.inr ?_)
  exact hf.imp fun f hf => List.mem_cons_of_mem _ hf

/-- The elements that a row statement is laid out with: its own, or those of the row that it is the
name of. -/
def rowElements (names : Names) (es args : List Expr) : List Expr :=
  match loneRow? names es args with
  | some (_, es', _) => es'
  | none => es

/-- A bare row is not the name of a row with a count. -/
theorem loneRow?_of_bare {names : Names} {es : List Expr} (h : ∀ e ∈ es, e.Bare names) :
    loneRow? names es [] = none := by
  cases hr : loneRow? names es [] with
  | none => rfl
  | some found =>
    obtain ⟨id, es', args'⟩ := found
    obtain ⟨-, hes, hd⟩ := exists_of_loneRow? hr
    obtain rfl | ⟨position, rfl⟩ := hes
    · cases h _ (List.mem_singleton_self _)
    · cases h _ (List.mem_singleton_self _) with
      | group hd' => cases hd.symm.trans hd'
      | uncounted hd' _ =>
        cases hd.symm.trans hd'
        simp [loneRow?, loneName?, hd] at hr

/-- The description of a row statement, wherever it is laid out.  If an element of the row is
visible, a state that comes from the row has the description.  If the row is nothing but names for
groups, the description makes no difference. -/
theorem description_shown {names : Names} (hn : names.InGrammar) {es args : List Expr}
    {desc : Description} (hs : (Stmt.row es args desc).isLine true) (hd : desc.lines ≠ [])
    {within : List String} {unused : Nat} {rs : List Record}
    (h : statement ⟨names, within, expand names unused within⟩ (.row es args desc) = .ok rs) :
    ((∃ e ∈ rowElements names es args, e.Visible names) →
      Show rs ("\n".intercalate desc.lines)) ∧
    (args = [] → (∀ e ∈ es, e.Bare names) → ∀ other : Description,
      statement ⟨names, within, expand names unused within⟩ (.row es args other) = .ok rs) := by
  have hp := expand_nests hn unused within
  have hg := expand_gives hn unused within
  simp only [Stmt.isLine, Bool.and_eq_true] at hs
  cases hr : loneRow? names es args with
  | some found =>
    obtain ⟨id, es', args'⟩ := found
    obtain ⟨rfl, -, hname⟩ := exists_of_loneRow? hr
    simp only [statement, hr] at h
    obtain ⟨ps, hps, h⟩ := exists_of_bind_ok h
    cases h
    refine ⟨fun hv => ?_, fun _ hb => ?_⟩
    · have hgives : Gives names es' ps := hg _ _ _ _ (hn.isDefinition_row hname) hps
      have hnested := expand_row_nested hp hn hname hps
      have hf := hgives.visible (by simpa [rowElements, hr] using hv)
      exact show_statementRecords hd _ hnested hf
    · cases hr.symm.trans (loneRow?_of_bare hb)
  | none =>
    simp only [statement, hr] at h
    obtain ⟨ps, hps, h⟩ := exists_of_bind_ok h
    cases h
    have hgives := elements_gives hg hn hs.1 hps
    refine ⟨fun hv => ?_, ?_⟩
    · have hnested := elements_nested hp hn hs.1 hps
      have hf := hgives.visible (by simpa [rowElements, hr] using hv)
      exact show_statementRecords hd _ hnested hf
    · rintro rfl hb other
      obtain ⟨hfragment, hargs⟩ := hgives.bare hb
      simp only [statement, hr, hps]
      have hrow := Piece.assemble_eq_of_bare hfragment hargs other.lines desc.lines []
      exact congrArg Except.ok hrow

/-- The row `k g` with a description, where `g` is a group. -/
def besideGroup : List Stmt :=
  [.define ⟨.start, "g"⟩ (.group .start .start [] [.row [.stitch .start ⟨.start, "p"⟩ []] [] .none])
      .none,
    .row [.stitch .start ⟨.start, "k"⟩ [], .stitch .start ⟨.start, "g"⟩ []] []
      ⟨[⟨.start, "; Band"⟩]⟩]

theorem description_shown_besideGroup :
    let names := Names.ofStmts besideGroup
    let es : List Expr := [.stitch .start ⟨.start, "k"⟩ [], .stitch .start ⟨.start, "g"⟩ []]
    let band : Description := ⟨[⟨.start, "; Band"⟩]⟩
    band.lines = ["Band", ""] ∧
    ∃ rs, statement ⟨names, [], expand names 1 []⟩ (.row es [] band) = .ok rs ∧ Show rs "Band\n" := by
  intro names es band
  have hn : names.InGrammar := ⟨by decide, by decide⟩
  obtain ⟨rs, hrs⟩ : ∃ rs, statement ⟨names, [], expand names 1 []⟩ (.row es [] band) = .ok rs :=
    ⟨_, rfl⟩
  obtain ⟨hshow, -⟩ := description_shown hn (by decide) (by decide) hrs
  have hv : Expr.Visible names (.stitch .start ⟨.start, "k"⟩ []) := .stitch rfl
  exact ⟨rfl, rs, hrs, hshow ⟨_, List.mem_cons_self, hv⟩⟩

end Layout

/-- A row that is just the name of a group. -/
def Block.onlyGroup : Block :=
  let stitch (p : Position) (s : String) : Expr := .stitch p ⟨p, s⟩ []
  ⟨[.define ⟨⟨1, 1⟩, "g"⟩ (.group ⟨1, 5⟩ ⟨3, 1⟩ [] [.row [stitch ⟨2, 1⟩ "k"] [] .none]) .none,
    .row [stitch ⟨5, 1⟩ "g"] [] ⟨[⟨⟨4, 1⟩, "; Band"⟩]⟩], ⟨1, 1⟩, ⟨6, 0⟩, .none⟩

/-- The one state of the pattern comes from the row, and does not have the description. -/
theorem Compilation.description_lost :
    let band : Description := ⟨[⟨⟨4, 1⟩, "; Band"⟩]⟩
    Pattern.ofSources ["g = \x7b\nk\n\x7d\n; Band\ng\n"] = .ok Block.onlyGroup ∧
    Block.onlyGroup.statements.getLast? =
      some (.row [.stitch ⟨5, 1⟩ ⟨⟨5, 1⟩, "g"⟩ []] [] band) ∧ band.lines = ["Band", ""] ∧
    ∃ s : State, Compilation.states Block.onlyGroup = .ok [s] ∧ s.row = ["k"] ∧
      s.desc.row = "" ∧ s.desc.group = "" :=
  ⟨rfl, rfl, rfl, _, rfl, rfl, rfl, rfl⟩

end KnittingPattern
