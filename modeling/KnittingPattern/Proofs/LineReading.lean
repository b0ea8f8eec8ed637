import KnittingPattern.Proofs.LeftOutComments

/-! # Reading within a line

From the first token of a statement to the end of its line a reader keeps the description of the
statement and the lines of the group that it has closed.  The end of the line then makes a statement
of both, or begins a group.  Main theorems: `Reader.moves_step`, `Reader.ended_of_step`,
`Reader.carries_ended`. -/

namespace KnittingPattern

open Token (Kind)

/-- The statements of the group that a statement is. -/
def Stmt.lines : Stmt → List Stmt
  | .group _ _ _ lines _ => lines
  | .define _ (.group _ _ _ lines) _ => lines
  | _ => []

/-- Within a line of the grammar are lines of the grammar. -/
theorem Stmt.areLines_lines {decimals : Bool} {s : Stmt} (h : s.isLine decimals) :
    areLines decimals s.lines := by
  cases s with
  | group lbrace rbrace args lines desc => exact (Bool.and_eq_true _ _ ▸ h).1
  | define lhs rhs desc =>
    simp only [isLine, Bool.and_eq_true] at h
    cases rhs with
    | group lbrace rbrace args lines =>
      simp only [Expr.isDefinition, Bool.and_eq_true] at h
      exact h.2.1
    | _ => rfl
  | _ => rfl

/-- Tokens of a line, apart from a comment behind it. -/
def Token.Kind.isInLine (k : Kind) : Bool := !(k.endsLine || k == .comment)

theorem Token.Kind.of_isInLine {k : Kind} (h : k.isInLine) :
    (k.endsLine || k == .comment) = false ∧ k ≠ .comment ∧ k ≠ .newline ∧ k.endsSource = false := by
  revert h
  cases k <;> decide

/-- A place in the line of a statement, which is described by `d` so far.  In the line of a row
`begun` holds, behind the brace that closes a group `held` holds of its lines. -/
def Owner.Carries (begun : Prop) (held : List Stmt → Prop) (d : Description) : Owner → Prop
  | stitch l _ | inlineRow l _ => l.desc = d ∧ begun
  | group g _ lines => g.desc = d ∧ held lines

@[inherit_doc Owner.Carries]
def Place.Carries (begun : Prop) (held : List Stmt → Prop) (d : Description) : Place → Prop
  | word d' _ | target d' _ | body d' _ | brace _ d' _ => d' = d ∧ begun
  | elements l | stitch l _ | closed l _ => l.desc = d ∧ begun
  | groupClosed g _ lines => g.desc = d ∧ held lines
  | args owner _ _ => owner.Carries begun held d
  | lineEnd s => s.desc = d ∧ held s.lines
  | between _ _ | commented _ => False

theorem Owner.Carries.mono {begun begun' : Prop} {held held' : List Stmt → Prop}
    {d : Description} {owner : Owner} (h : owner.Carries begun held d) (hb : begun → begun')
    (hc : ∀ lines, held lines → held' lines) : owner.Carries begun' held' d := by
  cases owner with
  | group g rbrace lines => exact ⟨h.1, hc _ h.2⟩
  | _ => exact ⟨h.1, hb h.2⟩

theorem Place.Carries.mono {begun begun' : Prop} {held held' : List Stmt → Prop}
    {d : Description} {p : Place} (h : p.Carries begun held d) (hb : begun → begun')
    (hc : ∀ lines, held lines → held' lines) : p.Carries begun' held' d := by
  cases p with
  | between | commented => exact h
  | groupClosed g rbrace lines => exact ⟨h.1, hc _ h.2⟩
  | lineEnd s => exact ⟨h.1, hc _ h.2⟩
  | args owner as place => exact Owner.Carries.mono h hb hc
  | _ => exact ⟨h.1, hb h.2⟩

theorem Stmt.desc_withDesc (s : Stmt) (d : Description) : (s.withDesc d).desc = d := by
  cases s <;> rfl

theorem Stmt.lines_withDesc (s : Stmt) (d : Description) : (s.withDesc d).lines = s.lines := by
  cases s with
  | define lhs rhs desc => cases rhs <;> rfl
  | _ => rfl

namespace Reader

theorem desc_rowStmt (l : RowLine) : (rowStmt l).desc = l.desc := by
  unfold rowStmt
  dsimp only
  cases l.role <;> rfl

theorem lines_rowStmt (l : RowLine) : (rowStmt l).lines = [] := by
  unfold rowStmt
  dsimp only
  cases l.role <;> rfl

theorem desc_groupStmt (g : OpenGroup) (rbrace : Position) (as : List Expr) (lines : List Stmt) :
    (groupStmt g rbrace as lines).desc = g.desc := by
  unfold groupStmt
  cases g.role <;> rfl

theorem lines_groupStmt (g : OpenGroup) (rbrace : Position) (as : List Expr) (lines : List Stmt) :
    (groupStmt g rbrace as lines).lines = lines := by
  unfold groupStmt
  cases g.role <;> rfl

variable {r q : Reader} {begun : Prop} {held : List Stmt → Prop} {d : Description} {t : Token}

section

variable (begun held)

/-- A reader that goes on goes on in the line. -/
def Moves (r : Reader) (d : Description) (x : Except SyntaxError Reader) : Prop :=
  ∀ q, x = .ok q → ∃ p : Place, p.Carries begun held d ∧ q = { r with place := p }

end

@[simp] theorem moves_error (e : SyntaxError) : Moves begun held r d (.error e) := by
  intro q h
  cases h

@[simp] theorem moves_unexpected (x : Expectation) : Moves begun held r d (unexpected t x) :=
  moves_error _

theorem moves_goto {p : Place} (hp : p.Carries begun held d) :
    Moves begun held r d (r.goto p) := by
  rintro q ⟨⟩
  exact ⟨p, hp, rfl⟩

theorem moves_elements (ht : t.kind.isInLine) (hb : begun) {l : RowLine} (hd : l.desc = d) :
    Moves begun held r d (r.elements l t) := by
  unfold elements
  split
  · exact moves_goto ⟨hd, hb⟩
  · exact moves_goto ⟨hd, hb⟩
  · exact moves_goto ⟨hd, hb⟩
  · rw [if_neg (Bool.eq_false_iff.mp (Kind.of_isInLine ht).1)]
    exact moves_unexpected _
  · rw [if_neg (Bool.eq_false_iff.mp (Kind.of_isInLine ht).1)]
    exact moves_unexpected _

theorem moves_stitch (ht : t.kind.isInLine) (hb : begun) {l : RowLine} (hd : l.desc = d)
    (id : Identifier) : Moves begun held r d (r.stitch l id t) := by
  unfold stitch
  split
  · exact moves_goto ⟨hd, hb⟩
  all_goals first | exact moves_elements ht hb hd | exact moves_unexpected _

theorem moves_word (ht : t.kind.isInLine) (hb : begun) (id : Identifier) :
    Moves begun held r d (r.word d id t) := by
  unfold word
  split
  · exact moves_goto ⟨rfl, hb⟩
  · exact moves_goto ⟨rfl, hb⟩
  all_goals first
    | exact moves_stitch ht hb rfl id
    | split
      · exact moves_elements ht hb rfl
      · exact moves_stitch ht hb rfl id
    | exact moves_unexpected _

theorem moves_target (hbc : begun → held []) (hb : begun) (lhs : Identifier) :
    Moves begun held r d (r.target d lhs t) := by
  unfold target
  split
  · exact moves_goto ⟨rfl, hbc hb⟩
  · exact moves_unexpected _

theorem moves_body (hb : begun) (lhs : Identifier) : Moves begun held r d (r.body d lhs t) := by
  unfold body
  split
  · exact moves_goto ⟨rfl, hb⟩
  · exact moves_goto ⟨rfl, hb⟩
  · exact moves_unexpected _

theorem moves_brace (ht : t.kind.isInLine) (hb : begun) (role : Role) (lbrace : Position) :
    Moves begun held r d (r.brace role d lbrace t) := by
  unfold brace
  split
  · rename_i hn
    rw [hn] at ht
    cases ht
  · exact moves_elements ht hb rfl
  · exact moves_elements ht hb rfl
  · exact moves_unexpected _

theorem moves_closed (ht : t.kind.isInLine) (hb : begun) {l : RowLine} (hd : l.desc = d)
    (es : List Expr) : Moves begun held r d (r.closed l es t) := by
  unfold closed
  split
  · exact moves_goto ⟨hd, hb⟩
  · exact moves_elements ht hb hd

/-- Only the end of the line may follow a statement, or a comment. -/
theorem moves_lineEnd (ht : t.kind.isInLine) (s : Stmt) :
    Moves begun held r d (r.lineEnd s t) := by
  obtain ⟨-, hc, hn, he⟩ := Kind.of_isInLine ht
  rw [lineEnd, if_neg hc, ending, if_neg hn, if_neg (Bool.eq_false_iff.mp he)]
  exact moves_unexpected _

theorem moves_groupClosed (ht : t.kind.isInLine) {g : OpenGroup} {lines : List Stmt}
    (hd : g.desc = d) (hc : held lines) (rbrace : Position) :
    Moves begun held r d (r.groupClosed g rbrace lines t) := by
  unfold groupClosed
  split
  · exact moves_goto ⟨hd, hc⟩
  · exact moves_lineEnd ht _

variable {owner : Owner} {as : List Expr}

theorem carries_afterArgs (ho : owner.Carries begun held d) (as : List Expr) :
    (afterArgs owner as).Carries begun held d := by
  cases owner with
  | stitch l id => exact ho
  | inlineRow l es => exact ho
  | group g rbrace lines =>
    refine ⟨(desc_groupStmt ..).trans ho.1, ?_⟩
    rw [lines_groupStmt]
    exact ho.2

theorem moves_gotoArgs (ho : owner.Carries begun held d) (as : List Expr) (place : ArgumentPlace) :
    Moves begun held r d (r.goto (.args owner as place)) :=
  moves_goto ho

theorem moves_sizeValue (ho : owner.Carries begun held d) (before : Bool) (x : Expectation) :
    Moves begun held r d (r.sizeValue owner as before t x) := by
  unfold sizeValue
  split
  · exact moves_gotoArgs ho _ _
  · split
    · exact moves_gotoArgs ho _ _
    · exact moves_error _
  · exact moves_gotoArgs ho _ _
  · exact moves_unexpected _

theorem moves_argument (ho : owner.Carries begun held d) :
    Moves begun held r d (r.argument owner as t) := by
  unfold argument
  split
  · exact moves_gotoArgs ho _ _
  · exact moves_gotoArgs ho _ _
  · exact moves_sizeValue ho _ _

theorem moves_afterArgument (ho : owner.Carries begun held d) :
    Moves begun held r d (r.afterArgument owner as t) := by
  unfold afterArgument
  split
  · exact moves_gotoArgs ho _ _
  · exact moves_goto (carries_afterArgs ho as)
  · exact moves_unexpected _

theorem moves_afterValue (ho : owner.Carries begun held d) (s : Size) :
    Moves begun held r d (r.afterValue owner as s t) := by
  unfold afterValue
  split
  · exact moves_afterArgument ho
  · exact moves_afterArgument ho
  · exact moves_gotoArgs ho _ _
  · exact moves_gotoArgs ho _ _
  · split
    · exact moves_gotoArgs ho _ _
    · exact moves_error _
  · exact moves_unexpected _

theorem moves_args (ho : owner.Carries begun held d) (place : ArgumentPlace) :
    Moves begun held r d (r.args owner as place t) := by
  cases place with
  | first =>
    simp only [args]
    split
    · exact moves_goto (carries_afterArgs ho as)
    · exact moves_argument ho
  | next => exact moves_argument ho
  | minus => exact moves_sizeValue ho _ _
  | name id =>
    simp only [args]
    split
    all_goals first | exact moves_afterValue ho _ | exact moves_afterArgument ho
  | value s => exact moves_afterValue ho s
  | done => exact moves_afterArgument ho

/-- A token of a line leads on in the line. -/
theorem moves_step (hbc : begun → held []) (h : r.place.Carries begun held d)
    (ht : t.kind.isInLine) :    Moves begun held r d (r.step t) := by
  obtain ⟨title, groups, ss, place⟩ := r
  cases place with
  | between run desc => cases h
  | word desc id =>
    obtain ⟨rfl, hb⟩ := h
    exact moves_word ht hb id
  | target desc lhs =>
    obtain ⟨rfl, hb⟩ := h
    exact moves_target hbc hb lhs
  | body desc lhs =>
    obtain ⟨rfl, hb⟩ := h
    exact moves_body hb lhs
  | brace role desc lbrace =>
    obtain ⟨rfl, hb⟩ := h
    exact moves_brace ht hb role lbrace
  | elements l => exact moves_elements ht h.2 h.1
  | stitch l id => exact moves_stitch ht h.2 h.1 id
  | closed l es => exact moves_closed ht h.2 h.1 es
  | groupClosed g rbrace lines => exact moves_groupClosed ht h.1 h.2 rbrace
  | args owner as place => exact moves_args h place
  | lineEnd s => exact moves_lineEnd ht s
  | commented s => cases h

variable {s : Stmt}

/-- A line that may end here is a statement with its description. -/
theorem carries_ended (hbc : begun → held []) {p : Place} (h : p.Carries begun held d)
    (hs : p.ended? = some s) : s.desc = d ∧ held s.lines := by
  have hrow {l : RowLine} (hl : l.desc = d ∧ begun) :
      (rowStmt l).desc = d ∧ held (rowStmt l).lines := by
    rw [desc_rowStmt, lines_rowStmt]
    exact ⟨hl.1, hbc hl.2⟩
  cases p with
  | word d' id =>
    cases hs
    exact hrow h
  | elements l | stitch l _ | closed l _ =>
    simp only [Place.ended?] at hs
    split at hs
    · cases hs
      exact hrow h
    · cases hs
  | groupClosed g rbrace lines =>
    cases hs
    rw [desc_groupStmt, lines_groupStmt]
    exact h
  | lineEnd s =>
    cases hs
    exact h
  | _ => cases hs

/-- The end of a line ends a statement, or else a group begins. -/
theorem ended_of_step (h : r.place.Carries begun held d) (ht : t.kind.endsLine)
    (hq : r.step t = .ok q) :
    (∃ role lbrace, begun ∧ t.kind = .newline ∧ r.place = .brace role d lbrace ∧
      q = ⟨r.title, ⟨role, d, lbrace, r.statements⟩ :: r.groups, [], .between .none .none⟩) ∨
    ∃ s, r.place.ended? = some s ∧ r.ending s t = .ok q := by
  by_cases hs : ∃ s, r.place.ended? = some s
  · obtain ⟨s, hs⟩ := hs
    exact .inr ⟨s, hs, (step_of_ended hs ht).symm.trans hq⟩
  · obtain ⟨title, groups, ss, place⟩ := r
    obtain ⟨kind, literal, position, source⟩ := t
    cases place with
    | brace role desc lbrace =>
      obtain ⟨rfl, hb⟩ := h
      cases kind with
      | newline =>
        cases hq
        exact .inl ⟨role, lbrace, hb, rfl, rfl, rfl⟩
      | _ => first | exact absurd ht Bool.false_ne_true | cases hq
    | target desc lhs | body desc lhs =>
      cases kind <;> first | exact absurd ht Bool.false_ne_true | cases hq
    | elements l | stitch l _ | closed l _ =>
      obtain ⟨role, desc, braces, es⟩ := l
      cases braces with
      | nil => exact absurd ⟨_, rfl⟩ hs
      | cons b braces => cases kind <;> first | exact absurd ht Bool.false_ne_true | cases hq
    | args owner as place =>
      cases place <;> cases kind <;> first | exact absurd ht Bool.false_ne_true | cases hq
    | word desc id => exact absurd ⟨_, rfl⟩ hs
    | groupClosed g rbrace lines => exact absurd ⟨_, rfl⟩ hs
    | lineEnd s => exact absurd ⟨_, rfl⟩ hs
    | between run desc => cases h
    | commented s => cases h

end Reader
end KnittingPattern
