import KnittingPattern.Compilation
import KnittingPattern.Proofs.ScopeRecords

/-! # The grammar of records

A pattern laid out is a block: its statements stand between the start and the end of the block, a
row is three records, and a group holds statements.  In such records every scope that ends has
started, so a pattern that can be laid out can be unrolled.  Main theorem: `Block.records_unroll`.
-/

namespace KnittingPattern

/-- What a computation that has two parts and succeeds has computed. -/
theorem exists_of_bind_ok {ε α β : Type} {x : Except ε α} {f : α → Except ε β} {b : β}
    (h : x >>= f = .ok b) : ∃ a, x = .ok a ∧ f a = .ok b := by
  cases x with
  | error e => cases h
  | ok a => exact ⟨a, rfl, h⟩

theorem Compilation.states_eq_ok_iff {b : Block} {ss : List State} :
    states b = .ok ss ↔ ∃ rs, b.records = .ok rs ∧ State.ofRecords rs = .ok ss := by
  constructor
  · intro h
    cases hr : b.records with
    | error e =>
      rw [states, records, hr] at h
      cases h
    | ok rs =>
      rw [states, records, hr] at h
      have h : (State.ofRecords rs).mapError CompileError.unbalanced = .ok ss := h
      cases hs : State.ofRecords rs with
      | error e =>
        rw [hs] at h
        cases h
      | ok ss' =>
        rw [hs] at h
        cases h
        exact ⟨rs, rfl, hs⟩
  · rintro ⟨rs, hrs, hss⟩
    rw [states, records, hrs]
    exact congrArg (Except.mapError CompileError.unbalanced) hss

namespace Record

/-- The records of statements: rows that are not empty, groups with statements in them, and blocks.
-/
inductive Statements : List Record → Prop where
  | nil : Statements []
  | row (desc args : List String) {c : Content} {rest : List Record} (hc : c.isEmpty = false)
      (hr : Statements rest) : Statements (.startRow desc args :: .content c :: .endRow :: rest)
  | group (desc args : List String) {body rest : List Record} (hb : Statements body)
      (hr : Statements rest) : Statements (.startGroup desc args :: (body ++ .endGroup :: rest))
  | block (desc : List String) {body rest : List Record} (hb : Statements body)
      (hr : Statements rest) : Statements (.startBlock desc :: (body ++ .endBlock :: rest))

/-- The records of a block. -/
inductive OfBlock : List Record → Prop where
  | intro (desc : List String) {body : List Record} (hb : Statements body) :
      OfBlock (.startBlock desc :: (body ++ [.endBlock]))

theorem Statements.append {xs ys : List Record} (hx : Statements xs) (hy : Statements ys) :
    Statements (xs ++ ys) := by
  induction hx with
  | nil => exact hy
  | row desc args hc hr ih => exact .row desc args hc ih
  | group desc args hb hr ihb ihr =>
    simpa using Statements.group desc args hb ihr
  | block desc hb hr ihb ihr =>
    simpa using Statements.block desc hb ihr

end Record

open Record (Statements OfBlock)

namespace Piece

/-- Records within a row are those of statements. -/
def Sound : Piece → Prop
  | .records rs => Statements rs
  | _ => True

theorem statements_rowRecords (desc args : List String) (c : Content) :
    Statements (rowRecords desc args c) := by
  unfold rowRecords
  split
  · exact .nil
  · rename_i hc
    exact .row desc args (Bool.eq_false_iff.mpr hc) .nil

/-- Wherever records cut a row, what is before them and behind them are whole rows. -/
theorem statements_assemble (desc args : List String) (c : Content) {ps : List Piece}
    (h : ∀ p ∈ ps, p.Sound) : Statements (assemble desc args c ps) := by
  induction ps generalizing c with
  | nil => exact statements_rowRecords desc args c
  | cons p ps ih =>
    have hps : ∀ q ∈ ps, q.Sound := fun q hq => h q (List.mem_cons_of_mem p hq)
    cases p with
    | fragment f => exact ih _ hps
    | args ts => exact ih _ hps
    | records rs =>
      have hrs : Statements rs := h (.records rs) List.mem_cons_self
      exact (statements_rowRecords desc args c).append (hrs.append (ih .empty hps))

end Piece

namespace Layout

theorem statements_statementRecords (desc : Description) (args : List String) {ps : List Piece}
    (h : ∀ p ∈ ps, p.Sound) : Statements (statementRecords desc args ps) := by
  apply Piece.statements_assemble
  intro p hp
  rcases List.mem_cons.mp hp with rfl | hp
  · trivial
  · exact h p hp

theorem statements_groupRecords (desc args : List String) {rs : List Record}
    (h : Statements rs) : Statements (groupRecords desc args rs) :=
  .group desc args h .nil

/-- At a place, definitions expand to sound pieces. -/
def Place.Sound (p : Place) : Prop :=
  ∀ inline id e ps, p.expand inline id e = .ok ps → ∀ q ∈ ps, q.Sound

mutual

theorem element_sound {p : Place} (hp : p.Sound) (inline : Bool) (e : Expr) {ps : List Piece}
    (h : element p inline e = .ok ps) : ∀ q ∈ ps, q.Sound := by
  cases e with
  | ident id =>
    simp only [element] at h
    split at h
    · exact hp _ _ _ _ h
    · cases h
  | size s =>
    cases h
    simp
  | stitch position name args =>
    simp only [element] at h
    split at h
    · obtain ⟨qs, hqs, h⟩ := exists_of_bind_ok h
      cases h
      simpa [Piece.Sound] using hp _ _ _ _ hqs
    · cases h
      simp [Piece.Sound]
  | row es args =>
    obtain ⟨qs, hqs, h⟩ := exists_of_bind_ok h
    cases h
    have hs := elements_sound hp true es hqs
    simpa [braced, Piece.Sound, or_imp, forall_and] using hs
  | group lbrace rbrace args lines =>
    simp only [element] at h
    split at h
    · cases h
    · obtain ⟨rs, hrs, h⟩ := exists_of_bind_ok h
      cases h
      have hs := statements_sound hp lines hrs
      simpa [Piece.Sound] using statements_groupRecords _ _ hs

theorem elements_sound {p : Place} (hp : p.Sound) (inline : Bool) (es : List Expr)
    {ps : List Piece} (h : elements p inline es = .ok ps) : ∀ q ∈ ps, q.Sound := by
  cases es with
  | nil =>
    cases h
    simp
  | cons e es =>
    obtain ⟨qs, hqs, h⟩ := exists_of_bind_ok h
    obtain ⟨rs, hrs, h⟩ := exists_of_bind_ok h
    cases h
    intro q hq
    rcases List.mem_append.mp hq with hq | hq
    · exact element_sound hp inline e hqs q hq
    · exact elements_sound hp inline es hrs q hq

theorem statement_sound {p : Place} (hp : p.Sound) (s : Stmt) {rs : List Record}
    (h : statement p s = .ok rs) : Statements rs := by
  cases s with
  | synonym lhs rhs desc =>
    cases h
    exact .nil
  | define lhs rhs desc =>
    cases h
    exact .nil
  | row es args desc =>
    simp only [statement] at h
    split at h
    · obtain ⟨ps, hps, h⟩ := exists_of_bind_ok h
      cases h
      exact statements_statementRecords _ _ (hp _ _ _ _ hps)
    · obtain ⟨ps, hps, h⟩ := exists_of_bind_ok h
      cases h
      exact statements_statementRecords _ _ (elements_sound hp false es hps)
  | group lbrace rbrace args lines desc =>
    obtain ⟨qs, hqs, h⟩ := exists_of_bind_ok h
    cases h
    exact statements_groupRecords _ _ (statements_sound hp lines hqs)
  | block ss start stop desc =>
    obtain ⟨qs, hqs, h⟩ := exists_of_bind_ok h
    cases h
    exact .block _ (statements_sound hp ss hqs) .nil

theorem statements_sound {p : Place} (hp : p.Sound) (ss : List Stmt) {rs : List Record}
    (h : statements p ss = .ok rs) : Statements rs := by
  cases ss with
  | nil =>
    cases h
    exact .nil
  | cons s ss =>
    obtain ⟨qs, hqs, h⟩ := exists_of_bind_ok h
    obtain ⟨ts, hts, h⟩ := exists_of_bind_ok h
    cases h
    exact (statement_sound hp s hqs).append (statements_sound hp ss hts)

end

theorem definitionPieces_sound {p : Place} (hp : p.Sound) (inline : Bool) (e : Expr)
    {ps : List Piece} (h : definitionPieces p inline e = .ok ps) : ∀ q ∈ ps, q.Sound := by
  unfold definitionPieces at h
  split at h
  · exact elements_sound hp inline _ h
  · exact element_sound hp inline _ h

/-- However deep definitions are used within each other, their pieces are sound. -/
theorem expand_sound (names : Names) (unused : Nat) (within : List String) :
    Place.Sound ⟨names, within, expand names unused within⟩ := by
  induction unused generalizing within with
  | zero =>
    intro inline id e ps h
    simp only [expand] at h
    split at h <;> cases h
  | succ n ih =>
    intro inline id e ps h
    simp only [expand] at h
    split at h
    · cases h
    · exact definitionPieces_sound (ih _) inline e h

end Layout

/-- The records of a pattern are those of a block, whatever names stand for. -/
theorem Block.recordsUnder_ofBlock (names : Names) (b : Block) {rs : List Record}
    (h : b.recordsUnder names = .ok rs) : OfBlock rs := by
  obtain ⟨ss, hss, h⟩ := exists_of_bind_ok (f := fun ss => .ok (Layout.blockRecords b.desc ss)) h
  cases h
  exact .intro _ (Layout.statements_sound (Layout.expand_sound names _ _) b.statements hss)

namespace Unrolling.Progress

/-- Under the open scopes the records can be read. -/
def Reads (scopes : Scope → Scopes) (rs : List Record) : Prop :=
  ∀ steps d i, ∃ p, (of steps d scopes).readAll i rs = .ok p

/-- Records that can stand before any others: the same scopes are open behind them. -/
def Closed (rs : List Record) : Prop := ∀ scopes tail, Reads scopes tail → Reads scopes (rs ++ tail)

theorem Closed.append {xs ys : List Record} (hx : Closed xs) (hy : Closed ys) :
    Closed (xs ++ ys) := by
  intro scopes tail ht
  rw [List.append_assoc]
  exact hx scopes _ (hy scopes tail ht)

theorem closed_content (c : Content) : Closed [.content c] := by
  intro scopes tail ht steps d i
  rw [List.singleton_append, readAll_cons_ok _ (by simp) (read_content steps d scopes i c)]
  exact ht _ _ _

/-- A scope that starts and ends around closed records is closed, for its end finds it open. -/
theorem Closed.scope (s : Scope) (desc args : List String) {body : List Record}
    (hb : Closed body) : Closed (s.opening desc args :: (body ++ [s.ending])) := by
  intro scopes tail ht steps d i
  rw [List.cons_append, readAll_cons_ok _ (by simp) (read_opening steps d scopes i s desc args),
    List.append_assoc]
  refine hb _ _ ?_ _ _ _
  intro steps' d' j
  have he := read_ending steps' d'
    (Function.update scopes s ((scopes s).enter steps.size args)) j s
  simp only [Function.update_self, Scopes.leave?_enter, Function.update_idem,
    Function.update_eq_self] at he
  rw [List.singleton_append, readAll_cons_ok _ (by simp) he]
  exact ht _ _ _

/-- Behind the end of a block nothing is read. -/
theorem Closed.block (desc : List String) {body : List Record} (hb : Closed body) :
    Closed (.startBlock desc :: (body ++ [.endBlock])) := by
  intro scopes tail _ steps d i
  have hs : (of steps d scopes).read i (.startBlock desc) =
      .ok (of steps ⟨"\n".intercalate desc, d.group, d.row⟩ scopes) := rfl
  rw [List.cons_append, readAll_cons_ok _ (by simp) hs, List.append_assoc]
  refine hb _ _ ?_ _ _ _
  intro steps' d' j
  exact ⟨_, readAll_endBlock _ _ _⟩

theorem closed_statements {rs : List Record} (h : Statements rs) : Closed rs := by
  induction h with
  | nil => exact fun _ _ ht => ht
  | row desc args hc hr ih => exact ((closed_content _).scope .row desc args).append ih
  | group desc args hb hr ihb ihr =>
    simpa [Scope.opening, Scope.ending] using (ihb.scope .group desc args).append ihr
  | block desc hb hr ihb ihr => simpa using (ihb.block desc).append ihr

end Unrolling.Progress

theorem State.ofRecords_ofBlock {rs : List Record} (h : OfBlock rs) :
    ∃ ss, State.ofRecords rs = .ok ss := by
  cases h with
  | intro desc hb =>
    have hc := (Unrolling.Progress.closed_statements hb).block desc
    obtain ⟨p, hp⟩ := hc (fun _ => .none) [] (fun steps d i => ⟨_, rfl⟩) #[] .none 0
    rw [List.append_nil] at hp
    exact ⟨_, congrArg (Except.map _) hp⟩

/-- A pattern laid out is a block in the grammar of records, whatever tree it is, and it can be
unrolled: a scope that ends without a start never comes out of a pattern. -/
theorem Block.records_unroll (b : Block) {rs : List Record} (h : b.records = .ok rs) :
    OfBlock rs ∧ (∃ ss, State.ofRecords rs = .ok ss) ∧ ∃ ss, Compilation.states b = .ok ss := by
  have hb := b.recordsUnder_ofBlock _ h
  obtain ⟨ss, hss⟩ := State.ofRecords_ofBlock hb
  have hrs : Compilation.records b = .ok rs := by
    rw [Compilation.records, h]
    rfl
  refine ⟨hb, ⟨ss, hss⟩, ss, ?_⟩
  rw [Compilation.states, hrs]
  exact congrArg (Except.mapError CompileError.unbalanced) hss

/-- A row to be knitted twice, which a definition that is a group cuts in two. -/
def Block.cutRow : Block :=
  let stitch (s : String) : Expr := .stitch .start ⟨.start, s⟩ []
  let twice : Expr := .size ⟨.start, .whole 2, .count, false⟩
  ⟨[.define ⟨.start, "m"⟩ (.group .start .start [twice] [.row [stitch "k"] [] .none]) .none,
    .row [stitch "p", stitch "m", .row [stitch "p"] [twice]] [twice] .none], .start, .start, .none⟩

/-- Its records: two rows around a group. -/
def Block.cutRowRecords : List Record :=
  [.startBlock [], .startRow [] ["2"], .content ⟨[], ["2"], ["p"]⟩, .endRow, .startGroup [] ["2"],
    .startRow [] [], .content ⟨[], [], ["k"]⟩, .endRow, .endGroup, .startRow [] ["2"],
    .content ⟨[], [], ["\x7b", "p", "\x7d 2"]⟩, .endRow, .endBlock]

theorem Block.records_unroll_cutRow : Block.cutRow.records = .ok Block.cutRowRecords ∧
    OfBlock Block.cutRowRecords ∧ (∃ ss, State.ofRecords Block.cutRowRecords = .ok ss) ∧
    ∃ ss, Compilation.states Block.cutRow = .ok ss :=
  ⟨rfl, Block.cutRow.records_unroll rfl⟩

end KnittingPattern
