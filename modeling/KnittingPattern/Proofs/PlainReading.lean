import KnittingPattern.Proofs.FirstOffence
import KnittingPattern.Proofs.PatternGrammar

/-! # Reading without positions and descriptions

What a reader makes of a token that is no comment depends on the class of the token and on what is
written, but on no position and on no description.  Main theorems: `Reader.step_plain`,
`Reader.exists_run_of_plain`. -/

namespace KnittingPattern

open Token (Kind)

/-- The token with its position forgotten. -/
def Token.plain (t : Token) : Token := ⟨t.kind, t.literal, .start, 0⟩

def Identifier.plain (id : Identifier) : Identifier := id.map fun _ => .start

def Size.plain (s : Size) : Size := s.map fun _ => .start

def Role.plain : Role → Role
  | statement => statement
  | definition name => definition name.plain

def OpenBrace.plain (b : OpenBrace) : OpenBrace := ⟨.start, b.before.map Expr.plain⟩

def RowLine.plain (line : RowLine) : RowLine :=
  ⟨line.role.plain, .none, line.braces.map OpenBrace.plain, line.elements.map Expr.plain⟩

def OpenGroup.plain (g : OpenGroup) : OpenGroup :=
  ⟨g.role.plain, .none, .start, g.before.map Stmt.plain⟩

def Owner.plain : Owner → Owner
  | stitch line name => stitch line.plain name.plain
  | inlineRow line es => inlineRow line.plain (es.map Expr.plain)
  | group g _ lines => group g.plain .start (lines.map Stmt.plain)

def ArgumentPlace.plain : ArgumentPlace → ArgumentPlace
  | name id => name id.plain
  | value s => value s.plain
  | p => p

/-- The place without positions and descriptions; runs of comments are forgotten too. -/
def Place.plain : Place → Place
  | between _ _ => between .none .none
  | word _ id => word .none id.plain
  | target _ lhs => target .none lhs.plain
  | body _ lhs => body .none lhs.plain
  | brace role _ _ => brace role.plain .none .start
  | elements line => elements line.plain
  | stitch line id => stitch line.plain id.plain
  | closed line es => closed line.plain (es.map Expr.plain)
  | groupClosed g _ lines => groupClosed g.plain .start (lines.map Stmt.plain)
  | args owner as place => args owner.plain (as.map Expr.plain) place.plain
  | lineEnd s => lineEnd s.plain
  | commented s => commented s.plain

/-- The error without its positions. -/
def SyntaxError.placeless : SyntaxError → SyntaxError
  | unexpected found literal _ expected => unexpected found literal .start expected
  | unclosedRow _ _ => unclosedRow .start .start
  | unclosedGroup _ _ => unclosedGroup .start .start
  | invalidNumber literal _ => invalidNumber literal .start
  | unknownUnit literal _ => unknownUnit literal .start

namespace Reader

def plain (r : Reader) : Reader :=
  ⟨.none, r.groups.map OpenGroup.plain, r.statements.map Stmt.plain, r.place.plain⟩

/-- Either both go on, to the same but for positions and descriptions, or both fail, with the same
error but for its positions. -/
def Goes (x y : Except SyntaxError Reader) : Prop := x = (y.map plain).mapError SyntaxError.placeless

theorem goes_goto (r : Reader) {p p' : Place} (h : p' = p.plain) :
    Goes (r.plain.goto p') (r.goto p) := by
  subst h
  rfl

theorem plain_finish (r : Reader) (s : Stmt) : (r.finish s).plain = r.plain.finish s.plain := by
  simp [finish, plain, Place.plain]

end Reader

theorem Expr.plain_stitch (p : Position) (id : Identifier) (as : List Expr) :
    (stitch p id as).plain = stitch .start id.plain (as.map plain) := by
  simp only [plain, Expr.map, Expr.mapAll_eq_map]
  rfl

theorem Expr.plain_row (es as : List Expr) :
    (row es as).plain = row (es.map plain) (as.map plain) := by
  simp only [plain, Expr.map, Expr.mapAll_eq_map]
  rfl

theorem Expr.plain_group (lbrace rbrace : Position) (as : List Expr) (lines : List Stmt) :
    (group lbrace rbrace as lines).plain =
      group .start .start (as.map plain) (lines.map Stmt.plain) := by
  simp only [plain, Expr.map, Expr.mapAll_eq_map, Stmt.mapAll_eq_map]
  rfl

theorem Stmt.plain_define (lhs : Identifier) (rhs : Expr) (desc : Description) :
    (define lhs rhs desc).plain = define lhs.plain rhs.plain .none := rfl

theorem Stmt.plain_row (es as : List Expr) (desc : Description) :
    (row es as desc).plain = row (es.map Expr.plain) (as.map Expr.plain) .none := by
  simp only [plain, Stmt.map, Expr.mapAll_eq_map]
  rfl

theorem Stmt.plain_group (lbrace rbrace : Position) (as : List Expr) (lines : List Stmt)
    (desc : Description) : (group lbrace rbrace as lines desc).plain =
      group .start .start (as.map Expr.plain) (lines.map plain) .none := by
  simp only [plain, Stmt.map, Expr.mapAll_eq_map, Stmt.mapAll_eq_map]
  rfl

theorem RowLine.plain_push (line : RowLine) (e : Expr) :
    (line.push e).plain = line.plain.push e.plain := by
  simp [push, plain]

namespace Reader

theorem plain_rowStmt (line : RowLine) : (rowStmt line).plain = rowStmt line.plain := by
  have hdefine (name : Identifier) (es as : List Expr) (desc : Description) :
      (Stmt.define name (.row es as) desc).plain =
        .define name.plain (.row (es.map Expr.plain) (as.map Expr.plain)) .none := by
    rw [Stmt.plain_define, Expr.plain_row]
  obtain ⟨role, desc, braces, es⟩ := line
  match es with
  | [.row es as] =>
    have hes : [Expr.row es as].map Expr.plain = [.row (es.map Expr.plain) (as.map Expr.plain)] :=
      congrArg ([·]) (Expr.plain_row es as)
    cases role with
    | statement => simp only [rowStmt, Stmt.plain_row, RowLine.plain, hes, Role.plain]
    | definition name => simp only [rowStmt, hdefine, RowLine.plain, hes, Role.plain]
  | [] | [.ident _] | [.size _] | [.stitch _ _ _] | [.group _ _ _ _] =>
    cases role with
    | statement => exact Stmt.plain_row _ _ _
    | definition name => exact hdefine _ _ _ _
  | e :: e' :: es =>
    cases role with
    | statement => cases e <;> exact Stmt.plain_row _ _ _
    | definition name => cases e <;> exact hdefine _ _ _ _

theorem plain_groupStmt (g : OpenGroup) (rbrace : Position) (as : List Expr) (lines : List Stmt) :
    (groupStmt g rbrace as lines).plain =
      groupStmt g.plain .start (as.map Expr.plain) (lines.map Stmt.plain) := by
  obtain ⟨role, desc, lbrace, before⟩ := g
  cases role with
  | statement => exact Stmt.plain_group _ _ _ _ _
  | definition name =>
    simp only [groupStmt, Stmt.plain_define, Expr.plain_group]
    rfl

variable {t : Token}

theorem goes_statement (r : Reader) (desc : Description) (ht : t.kind ≠ .comment) :
    Goes (r.plain.statement .none t.plain) (r.statement desc t) := by
  obtain ⟨title, groups, ss, place⟩ := r
  obtain ⟨kind, literal, position, source⟩ := t
  cases kind <;> cases groups <;> first | rfl | contradiction

theorem goes_between (r : Reader) (run : Run) (desc : Description) (ht : t.kind ≠ .comment) :
    Goes (r.plain.between .none .none t.plain) (r.between run desc t) := by
  have hs := goes_statement r desc ht
  by_cases hn : t.kind = .newline
  · obtain ⟨kind, literal, position, source⟩ := t
    cases hn
    cases run with
    | start => exact hs
    | none => exact hs
    | comment title => rfl
    | line title => cases title <;> rfl
  · have hplain := between_eq_statement r.plain .none .none (t := t.plain) hn ht
    rw [hplain, between_eq_statement r run desc hn ht]
    exact hs

theorem goes_ending (r : Reader) (s : Stmt) (ht : t.kind ≠ .comment) :
    Goes (r.plain.ending s.plain t.plain) (r.ending s t) := by
  have hs := goes_statement (r.finish s) .none ht
  rw [plain_finish] at hs
  obtain ⟨kind, literal, position, source⟩ := t
  cases kind with
  | newline => exact congrArg Except.ok (plain_finish r s).symm
  | endOfInput | endOfSource => exact hs
  | _ => rfl

theorem goes_lineEnd (r : Reader) (s : Stmt) (ht : t.kind ≠ .comment) :
    Goes (r.plain.lineEnd s.plain t.plain) (r.lineEnd s t) := by
  rw [lineEnd, lineEnd, if_neg ht, if_neg (show t.plain.kind ≠ .comment from ht)]
  exact goes_ending r s ht

theorem goes_elements (r : Reader) (line : RowLine) (ht : t.kind ≠ .comment) :
    Goes (r.plain.elements line.plain t.plain) (r.elements line t) := by
  have hl := goes_lineEnd r (rowStmt line) ht
  rw [plain_rowStmt] at hl
  obtain ⟨role, desc, braces, es⟩ := line
  obtain ⟨kind, literal, position, source⟩ := t
  cases braces with
  | nil =>
    cases kind with
    | newline | endOfInput | endOfSource => exact hl
    | _ => first | rfl | contradiction
  | cons b braces => cases kind <;> rfl

theorem goes_stitch (r : Reader) (line : RowLine) (id : Identifier) (ht : t.kind ≠ .comment) :
    Goes (r.plain.stitch line.plain id.plain t.plain) (r.stitch line id t) := by
  have he := goes_elements r (line.push (.stitch id.position id [])) ht
  rw [RowLine.plain_push, Expr.plain_stitch] at he
  obtain ⟨kind, literal, position, source⟩ := t
  cases kind with
  | identifier | leftBrace | rightBrace | newline | endOfSource | endOfInput => exact he
  | _ => first | rfl | contradiction

theorem goes_word (r : Reader) (desc : Description) (id : Identifier) (ht : t.kind ≠ .comment) :
    Goes (r.plain.word .none id.plain t.plain) (r.word desc id t) := by
  have he := goes_elements r ⟨.statement, desc, [], []⟩ ht
  have hs := goes_stitch r ⟨.statement, desc, [], []⟩ id ht
  obtain ⟨kind, literal, position, source⟩ := t
  have hrow : id.plain.name = id.name := rfl
  cases kind with
  | identifier | leftBrace =>
    simp only [word, Token.plain, hrow]
    split
    · exact he
    · exact hs
  | leftParen | newline | endOfSource | endOfInput => exact hs
  | _ => first | rfl | contradiction

theorem goes_target (r : Reader) (desc : Description) (lhs : Identifier) :
    Goes (r.plain.target .none lhs.plain t.plain) (r.target desc lhs t) := by
  obtain ⟨kind, literal, position, source⟩ := t
  cases kind <;> rfl

theorem goes_body (r : Reader) (desc : Description) (lhs : Identifier) :
    Goes (r.plain.body .none lhs.plain t.plain) (r.body desc lhs t) := by
  obtain ⟨kind, literal, position, source⟩ := t
  cases kind <;> rfl

theorem goes_brace (r : Reader) (role : Role) (desc : Description) (lbrace : Position)
    (ht : t.kind ≠ .comment) :
    Goes (r.plain.brace role.plain .none .start t.plain) (r.brace role desc lbrace t) := by
  have he := goes_elements r ⟨role, desc, [⟨lbrace, []⟩], []⟩ ht
  obtain ⟨kind, literal, position, source⟩ := t
  cases kind with
  | identifier | leftBrace => exact he
  | _ => rfl

theorem goes_closed (r : Reader) (line : RowLine) (es : List Expr) (ht : t.kind ≠ .comment) :
    Goes (r.plain.closed line.plain (es.map Expr.plain) t.plain) (r.closed line es t) := by
  have he := goes_elements r (line.push (.row es [])) ht
  rw [RowLine.plain_push, Expr.plain_row] at he
  by_cases hp : t.kind = .leftParen
  · rw [closed, closed, if_pos hp, if_pos (show t.plain.kind = .leftParen from hp)]
    exact goes_goto r rfl
  · rw [closed, closed, if_neg hp, if_neg (show t.plain.kind ≠ .leftParen from hp)]
    exact he

theorem goes_groupClosed (r : Reader) (g : OpenGroup) (rbrace : Position) (lines : List Stmt)
    (ht : t.kind ≠ .comment) :
    Goes (r.plain.groupClosed g.plain .start (lines.map Stmt.plain) t.plain)
      (r.groupClosed g rbrace lines t) := by
  have hl := goes_lineEnd r (groupStmt g rbrace [] lines) ht
  rw [plain_groupStmt] at hl
  by_cases hp : t.kind = .leftParen
  · rw [groupClosed, groupClosed, if_pos hp, if_pos (show t.plain.kind = .leftParen from hp)]
    exact goes_goto r rfl
  · rw [groupClosed, groupClosed, if_neg hp, if_neg (show t.plain.kind ≠ .leftParen from hp)]
    exact hl

variable (r : Reader) (owner : Owner) (as : List Expr)

theorem plain_afterArgs :
    afterArgs owner.plain (as.map Expr.plain) = (afterArgs owner as).plain := by
  cases owner with
  | stitch line id =>
    simp only [afterArgs, Place.plain, RowLine.plain_push, Expr.plain_stitch]
    rfl
  | inlineRow line es =>
    simp only [afterArgs, Place.plain, RowLine.plain_push, Expr.plain_row]
    rfl
  | group g rbrace lines => simp only [afterArgs, Place.plain, plain_groupStmt, Owner.plain]

theorem goes_args {as' : List Expr} (hs : as' = as.map Expr.plain) (place : ArgumentPlace) :
    Goes (r.plain.goto (.args owner.plain as' place.plain)) (r.goto (.args owner as place)) := by
  subst hs
  exact goes_goto r rfl

theorem amount?_cases {literal : String} {a : Amount} (h : amount? literal = some a) :
    (∃ n, a = .whole n) ∨ ∃ x, a = .decimal x := by
  unfold amount? at h
  split at h
  · exact .inl ⟨_, (Option.some.inj h).symm⟩
  · obtain ⟨x, -, rfl⟩ := Option.map_eq_some_iff.mp h
    exact .inr ⟨x, rfl⟩

theorem goes_sizeValue (before : Bool) (x : Expectation) :
    Goes (r.plain.sizeValue owner.plain (as.map Expr.plain) before t.plain x)
      (r.sizeValue owner as before t x) := by
  obtain ⟨kind, literal, position, source⟩ := t
  cases kind with
  | asterisk =>
    have has : (as ++ [Expr.size ⟨position, .unstated, .toEnd, before⟩]).map Expr.plain =
        as.map Expr.plain ++ [Expr.size ⟨.start, .unstated, .toEnd, before⟩] := List.map_append
    exact goes_args r owner _ has.symm .done
  | number =>
    simp only [sizeValue, Token.plain]
    cases ha : amount? literal with
    | none => rfl
    | some a =>
      have hmap : a.map (fun _ => .start) = a := by
        obtain ⟨n, rfl⟩ | ⟨d, rfl⟩ := amount?_cases ha <;> rfl
      refine goes_goto r ?_
      simp only [Place.plain, ArgumentPlace.plain, Size.plain, Size.map, hmap]
  | _ => rfl

theorem goes_argument :
    Goes (r.plain.argument owner.plain (as.map Expr.plain) t.plain) (r.argument owner as t) := by
  have hs := goes_sizeValue (t := t) r owner as false .argument
  obtain ⟨kind, literal, position, source⟩ := t
  cases kind with
  | identifier | minus => rfl
  | _ => exact hs

theorem goes_afterArgument :
    Goes (r.plain.afterArgument owner.plain (as.map Expr.plain) t.plain)
      (r.afterArgument owner as t) := by
  have ha := goes_goto r (plain_afterArgs owner as)
  obtain ⟨kind, literal, position, source⟩ := t
  cases kind with
  | rightParen => exact ha
  | _ => rfl

theorem goes_afterValue (s : Size) :
    Goes (r.plain.afterValue owner.plain (as.map Expr.plain) s.plain t.plain)
      (r.afterValue owner as s t) := by
  have hmeasured (s : Size) := goes_args r owner (as ++ [.size s]) List.map_append.symm .done
  have ha := goes_afterArgument (t := t) r owner (as ++ [.size s])
  rw [List.map_append] at ha
  obtain ⟨kind, literal, position, source⟩ := t
  cases kind with
  | comma | rightParen => exact ha
  | feet => exact hmeasured { s with measure := .feet }
  | inches => exact hmeasured { s with measure := .inches }
  | identifier =>
    simp only [afterValue, Token.plain]
    cases Measure.ofName? literal with
    | none => rfl
    | some m => exact hmeasured { s with measure := m }
  | _ => rfl

theorem goes_argsPlace (place : ArgumentPlace) :
    Goes (r.plain.args owner.plain (as.map Expr.plain) place.plain t.plain)
      (r.args owner as place t) := by
  cases place with
  | first =>
    have ha := goes_goto r (plain_afterArgs owner as)
    have hs := goes_argument (t := t) r owner as
    by_cases hp : t.kind = .rightParen
    · have hp' : t.plain.kind = .rightParen := hp
      simpa only [args, ArgumentPlace.plain, if_pos hp, if_pos hp'] using ha
    · have hp' : t.plain.kind ≠ .rightParen := hp
      simpa only [args, ArgumentPlace.plain, if_neg hp, if_neg hp'] using hs
  | next => exact goes_argument r owner as
  | minus => exact goes_sizeValue r owner as true .sizeValue
  | name id =>
    have hv := goes_afterValue (t := t) r owner as ⟨id.position, .named id, .count, false⟩
    have ha := goes_afterArgument (t := t) r owner (as ++ [.ident id])
    rw [List.map_append] at ha
    obtain ⟨kind, literal, position, source⟩ := t
    cases kind with
    | identifier | feet | inches => exact hv
    | _ => exact ha
  | value s => exact goes_afterValue r owner as s
  | done => exact goes_afterArgument r owner as

variable {r}

/-- Positions and descriptions play no part in what a token that is no comment does. -/
theorem step_plain (ht : t.kind ≠ .comment) : Goes (r.plain.step t.plain) (r.step t) := by
  have h : r.place.plain = r.plain.place := rfl
  unfold step
  rw [← h]
  cases r.place with
  | between run desc => exact goes_between r run desc ht
  | word desc id => exact goes_word r desc id ht
  | target desc lhs => exact goes_target r desc lhs
  | body desc lhs => exact goes_body r desc lhs
  | brace role desc lbrace => exact goes_brace r role desc lbrace ht
  | elements line => exact goes_elements r line ht
  | stitch line id => exact goes_stitch r line id ht
  | closed line es => exact goes_closed r line es ht
  | groupClosed g rbrace lines => exact goes_groupClosed r g rbrace lines ht
  | args owner as place => exact goes_argsPlace r owner as place
  | lineEnd s => exact goes_lineEnd r s ht
  | commented s => exact goes_ending r s ht

variable {r' : Reader} {t' : Token}

/-- Of two that do the same as a third, both go on if one does. -/
theorem Goes.exists_ok {x y y' : Except SyntaxError Reader} {u : Reader} (h : Goes x y)
    (h' : Goes x y') (hy : y = .ok u) : ∃ v, y' = .ok v ∧ v.plain = u.plain := by
  subst hy
  have hsame := h'.symm.trans h
  cases y' with
  | error e => cases hsame
  | ok v => exact ⟨v, rfl, Except.ok.inj hsame⟩

theorem exists_step_of_plain {q : Reader} (hr : r'.plain = r.plain) (ht : t'.plain = t.plain)
    (hc : t.kind ≠ .comment) (h : r.step t = .ok q) :
    ∃ q', r'.step t' = .ok q' ∧ q'.plain = q.plain := by
  have hkind : t'.plain.kind = t.plain.kind := congrArg Token.kind ht
  have hstep' := step_plain (r := r') (t := t') fun hc' => hc (hkind.symm.trans hc')
  rw [hr, ht] at hstep'
  exact (step_plain hc).exists_ok hstep' h

/-- Tokens that differ in their positions only are read alike. -/
theorem exists_run_of_plain {q : Reader} {ts ts' : List Token} (hr : r'.plain = r.plain)
    (hts : ts'.map Token.plain = ts.map Token.plain) (hc : ∀ t ∈ ts, t.kind ≠ .comment)
    (h : r.run ts = .ok q) : ∃ q', r'.run ts' = .ok q' ∧ q'.plain = q.plain := by
  induction ts generalizing r r' ts' with
  | nil =>
    cases h
    obtain rfl : ts' = [] := List.map_eq_nil_iff.mp hts
    exact ⟨r', rfl, hr⟩
  | cons t ts ih =>
    obtain ⟨t', ts', rfl, ht, hts⟩ := List.map_eq_cons_iff.mp hts
    obtain ⟨hct, hcs⟩ := List.forall_mem_cons.mp hc
    cases hs : r.step t with
    | error e =>
      rw [run_cons_error ts hs] at h
      cases h
    | ok p =>
      rw [run_cons ts hs] at h
      obtain ⟨p', hp', hplain⟩ := exists_step_of_plain hr ht hct hs
      rw [run_cons ts' hp']
      exact ih hplain hts hcs h

end Reader
end KnittingPattern
