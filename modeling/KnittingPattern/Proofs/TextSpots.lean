import KnittingPattern.Proofs.FirstOffence

/-! # The spots of a text that a tree points to

A tree keeps where its names, its amounts and the braces of its groups stand.  Each token adds at
most one such spot behind those that are read so far, and a reader drops spots but never moves them.
Main theorem: `Reader.run_spots`. -/

namespace KnittingPattern

open Token (Kind)

/-- A position that a tree keeps, with what stands there.  The brace that closes a group knows the
one that opens it and the statements between them. -/
inductive TextSpot where
  | value (position : Position) (a : Amount)
  | lbrace (position : Position)
  | rbrace (position lbrace : Position) (lines : List Stmt)

namespace TextSpot

def position : TextSpot → Position
  | value p _ | lbrace p | rbrace p _ _ => p

/-- The spot of a name. -/
def name (id : Identifier) : TextSpot := value id.position (.named id)

end TextSpot

mutual

/-- The spots of an expression, from left to right. -/
def Expr.spots : Expr → List TextSpot
  | .ident id => [.name id]
  | .size s => [.value s.position s.amount]
  | .stitch p name args => .value p (.named name) :: Expr.allSpots args
  | .row es args => Expr.allSpots es ++ Expr.allSpots args
  | .group lbrace rbrace args lines =>
    .lbrace lbrace :: (Stmt.allSpots lines ++ .rbrace rbrace lbrace lines :: Expr.allSpots args)

def Expr.allSpots : List Expr → List TextSpot
  | [] => []
  | e :: es => e.spots ++ Expr.allSpots es

/-- The spots of a statement, from left to right. -/
def Stmt.spots : Stmt → List TextSpot
  | .synonym lhs rhs _ => [.name lhs, .name rhs]
  | .define lhs rhs _ => .name lhs :: rhs.spots
  | .row es args _ => Expr.allSpots es ++ Expr.allSpots args
  | .group lbrace rbrace args lines _ =>
    .lbrace lbrace :: (Stmt.allSpots lines ++ .rbrace rbrace lbrace lines :: Expr.allSpots args)
  | .block ss _ _ _ => Stmt.allSpots ss

def Stmt.allSpots : List Stmt → List TextSpot
  | [] => []
  | s :: ss => s.spots ++ Stmt.allSpots ss

end

@[simp] theorem Expr.allSpots_append (es es' : List Expr) :
    allSpots (es ++ es') = allSpots es ++ allSpots es' := by
  induction es with
  | nil => rfl
  | cons e es ih => simp [allSpots, ih]

@[simp] theorem Stmt.allSpots_append (ss ss' : List Stmt) :
    allSpots (ss ++ ss') = allSpots ss ++ allSpots ss' := by
  induction ss with
  | nil => rfl
  | cons s ss ih => simp [allSpots, ih]

@[simp] theorem Stmt.spots_withDesc (s : Stmt) (d : Description) :
    (s.withDesc d).spots = s.spots := by
  cases s <;> rfl

def Role.spots : Role → List TextSpot
  | .statement => []
  | .definition name => [.name name]

/-- The braces of a row are not kept. -/
def RowLine.spots (line : RowLine) : List TextSpot :=
  line.role.spots ++ (line.braces.reverse.flatMap fun b => Expr.allSpots b.before) ++
    Expr.allSpots line.elements

/-- The statements before a group, and its beginning. -/
def OpenGroup.spots (g : OpenGroup) : List TextSpot :=
  Stmt.allSpots g.before ++ g.role.spots ++ [.lbrace g.lbrace]

/-- A group from its beginning to its closing brace. -/
def OpenGroup.closedSpots (g : OpenGroup) (rbrace : Position) (lines : List Stmt) : List TextSpot :=
  g.role.spots ++ .lbrace g.lbrace :: (Stmt.allSpots lines ++ [.rbrace rbrace g.lbrace lines])

def Owner.spots : Owner → List TextSpot
  | .stitch line id => line.spots ++ [.name id]
  | .inlineRow line es => line.spots ++ Expr.allSpots es
  | .group g rbrace lines => g.closedSpots rbrace lines

def ArgumentPlace.spots : ArgumentPlace → List TextSpot
  | .name id => [.name id]
  | .value s => [.value s.position s.amount]
  | _ => []

def Place.spots : Place → List TextSpot
  | .between _ _ => []
  | .word _ id | .target _ id | .body _ id => [.name id]
  | .brace role _ lbrace => role.spots ++ [.lbrace lbrace]
  | .elements line => line.spots
  | .stitch line id => line.spots ++ [.name id]
  | .closed line es => line.spots ++ Expr.allSpots es
  | .groupClosed g rbrace lines => g.closedSpots rbrace lines
  | .args owner as place => owner.spots ++ (Expr.allSpots as ++ place.spots)
  | .lineEnd s | .commented s => s.spots

/-- The amount that a token may be the value of. -/
def Token.value? (t : Token) : Option Amount :=
  match t.kind with
  | .identifier => some (.named (Reader.identifier t))
  | .number => Reader.amount? t.literal
  | .asterisk => some .unstated
  | _ => none

namespace Reader

/-- The spots of all that is read, but for the line that is being read. -/
def behind (r : Reader) : List TextSpot :=
  r.groups.reverse.flatMap OpenGroup.spots ++ Stmt.allSpots r.statements

def spots (r : Reader) : List TextSpot := r.behind ++ r.place.spots

/-- The spot of the next token; between statements a right brace closes the innermost group. -/
def newSpots (r : Reader) (t : Token) : List TextSpot :=
  match t.kind, r.place, r.groups with
  | .leftBrace, _, _ => [.lbrace t.position]
  | .rightBrace, .between _ _, g :: _ => [.rbrace t.position g.lbrace r.statements]
  | .rightBrace, _, _ => []
  | _, _, _ => (t.value?.map (.value t.position)).toList

/-- A reader that goes on points to no other spots than these, in this order. -/
def Points (r : Reader) (xs : List TextSpot) (x : Except SyntaxError Reader) : Prop :=
  ∀ q, x = .ok q → q.spots.Sublist (r.behind ++ xs)

variable {r q : Reader} {t : Token} {xs ys : List TextSpot}

@[simp] theorem points_error (e : SyntaxError) : Points r xs (.error e) := by
  intro q h
  cases h

@[simp] theorem points_unexpected (x : Expectation) : Points r xs (unexpected t x) :=
  points_error _

theorem points_goto {p : Place} (h : p.spots.Sublist xs) : Points r xs (r.goto p) := by
  rintro q ⟨⟩
  exact h.append_left _

theorem Points.mono {x : Except SyntaxError Reader} (h : Points r xs x) (hxs : xs.Sublist ys) :
    Points r ys x :=
  fun q hq => (h q hq).trans (hxs.append_left _)

theorem newSpots_of_identifier (h : t.kind = .identifier) :
    r.newSpots t = [.name (identifier t)] := by
  simp [newSpots, h, Token.value?, TextSpot.name, identifier]

theorem points_statement (r : Reader) (desc : Description) (t : Token)
    (hr : ∃ run desc, r.place = .between run desc) :
    Points r (r.newSpots t) (r.statement desc t) := by
  unfold statement
  split
  case h_4 => simp
  case h_5 => simp
  case h_7 g groups hk hg =>
    rintro q ⟨⟩
    obtain ⟨run, desc', hr⟩ := hr
    simp [spots, behind, Place.spots, OpenGroup.closedSpots, OpenGroup.spots, newSpots, hk, hg, hr]
  case h_8 hk =>
    refine points_goto ?_
    simp [Place.spots, newSpots_of_identifier hk]
  case h_9 hk =>
    refine points_goto ?_
    simp [Place.spots, newSpots, hk, Role.spots]
  case h_10 => simp
  all_goals exact points_goto (List.nil_sublist _)

theorem points_between (r : Reader) (run : Run) (desc : Description) (t : Token)
    (hr : r.place = .between run desc) : Points r (r.newSpots t) (r.between run desc t) := by
  unfold between
  split
  case h_4 =>
    rintro q ⟨⟩
    exact List.Sublist.append_left (List.nil_sublist _) _
  case h_5 => exact points_statement r desc t ⟨_, _, hr⟩
  all_goals exact points_goto (List.nil_sublist _)

theorem spots_finish (r : Reader) (s : Stmt) : (r.finish s).spots = r.behind ++ s.spots := by
  simp [spots, behind, finish, Place.spots, Stmt.allSpots]

/-- A token that ends a text is no spot. -/
theorem newSpots_of_endsSource (h : t.kind.endsSource) : r.newSpots t = [] := by
  revert h
  unfold newSpots Token.value?
  cases t.kind <;> simp [Kind.endsSource]

theorem points_ending (r : Reader) (s : Stmt) (t : Token) :
    Points r (s.spots ++ r.newSpots t) (r.ending s t) := by
  unfold ending
  split
  · rintro q ⟨⟩
    rw [spots_finish]
    exact (List.sublist_append_left _ _).append_left _
  · split
    · rename_i ht
      intro q hq
      have hstatement := points_statement (r.finish s) .none t ⟨_, _, rfl⟩ q hq
      rw [newSpots_of_endsSource ht, List.append_nil] at hstatement ⊢
      have hbehind : (r.finish s).behind = r.behind ++ s.spots := by
        rw [← spots_finish, spots]
        exact (List.append_nil _).symm
      rwa [hbehind] at hstatement
    · simp

theorem points_lineEnd (r : Reader) (s : Stmt) (t : Token) :
    Points r (s.spots ++ r.newSpots t) (r.lineEnd s t) := by
  unfold lineEnd
  split
  · refine points_goto ?_
    simp [Place.spots]
  · exact points_ending r s t

/-- A single row within a line takes its place and has its spots. -/
theorem spots_rowStmt {line : RowLine} (hb : line.braces = []) :
    (rowStmt line).spots = line.spots := by
  obtain ⟨es, as, helements, hstmt⟩ : ∃ es as,
      Expr.allSpots line.elements = Expr.allSpots es ++ Expr.allSpots as ∧
      rowStmt line = match line.role with
        | .statement => .row es as line.desc
        | .definition name => .define name (.row es as) line.desc := by
    unfold rowStmt
    split
    rename_i heq
    split at heq
    · rename_i h
      cases heq
      exact ⟨_, _, by simp [h, Expr.allSpots, Expr.spots], rfl⟩
    · cases heq
      exact ⟨line.elements, [], by simp [Expr.allSpots], rfl⟩
  rw [hstmt]
  cases hr : line.role <;>
    simp [Stmt.spots, Expr.spots, RowLine.spots, Role.spots, hr, hb, helements]

theorem spots_groupStmt (g : OpenGroup) (rbrace : Position) (as : List Expr) (lines : List Stmt) :
    (groupStmt g rbrace as lines).spots = g.closedSpots rbrace lines ++ Expr.allSpots as := by
  unfold groupStmt
  cases hr : g.role <;> simp [Stmt.spots, Expr.spots, OpenGroup.closedSpots, Role.spots, hr]

theorem spots_push (line : RowLine) (e : Expr) : (line.push e).spots = line.spots ++ e.spots := by
  simp [RowLine.push, RowLine.spots, Expr.allSpots]

theorem spots_push_stitch (line : RowLine) (id : Identifier) (as : List Expr) :
    (line.push (.stitch id.position id as)).spots =
      line.spots ++ .name id :: Expr.allSpots as := by
  rw [spots_push]
  rfl

theorem points_elements (r : Reader) (line : RowLine) (t : Token) :
    Points r (line.spots ++ r.newSpots t) (r.elements line t) := by
  unfold elements
  split
  · rename_i hk
    refine points_goto ?_
    simp [Place.spots, newSpots_of_identifier hk]
  · refine points_goto ?_
    simp [openBrace, Place.spots, RowLine.spots, Expr.allSpots]
  · rename_i hb
    refine points_goto ?_
    simp [Place.spots, RowLine.spots, hb]
  · split
    · rename_i hb _ _ _
      have hline := points_lineEnd r (rowStmt line) t
      rwa [spots_rowStmt hb] at hline
    · simp
  · split <;> simp

theorem points_stitch (r : Reader) (line : RowLine) (id : Identifier) (t : Token) :
    Points r (line.spots ++ (.name id :: r.newSpots t)) (r.stitch line id t) := by
  have helements := points_elements r (line.push (.stitch id.position id [])) t
  rw [spots_push_stitch, Expr.allSpots, List.append_assoc] at helements
  unfold stitch
  split
  · refine points_goto ?_
    simp [Place.spots, Owner.spots, ArgumentPlace.spots, Expr.allSpots]
  all_goals first | exact helements | simp

theorem points_word (r : Reader) (desc : Description) (id : Identifier) (t : Token) :
    Points r (.name id :: r.newSpots t) (r.word desc id t) := by
  have hstitch : Points r (.name id :: r.newSpots t) (r.stitch ⟨.statement, desc, [], []⟩ id t) :=
    points_stitch r ⟨.statement, desc, [], []⟩ id t
  have helements : Points r (.name id :: r.newSpots t) (r.elements ⟨.statement, desc, [], []⟩ t) :=
    (points_elements r ⟨.statement, desc, [], []⟩ t).mono (List.sublist_cons_self _ _)
  unfold word
  split
  · exact points_goto (by simp [Place.spots])
  · exact points_goto (by simp [Place.spots])
  all_goals first
    | exact hstitch
    | split
      · exact helements
      · exact hstitch
    | simp

theorem points_target (r : Reader) (desc : Description) (lhs : Identifier) (t : Token) :
    Points r (.name lhs :: r.newSpots t) (r.target desc lhs t) := by
  unfold target
  split
  · rename_i hk
    refine points_goto ?_
    simp [Place.spots, Stmt.spots, newSpots_of_identifier hk]
  · simp

theorem points_body (r : Reader) (desc : Description) (lhs : Identifier) (t : Token) :
    Points r (.name lhs :: r.newSpots t) (r.body desc lhs t) := by
  unfold body
  split
  · rename_i hk
    refine points_goto ?_
    simp [Place.spots, Role.spots, newSpots, hk]
  · rename_i hk
    refine points_goto ?_
    simp [Place.spots, RowLine.spots, Role.spots, Expr.allSpots, newSpots_of_identifier hk]
  · simp

theorem points_brace (r : Reader) (role : Role) (desc : Description) (lbrace : Position)
    (t : Token) : Points r (role.spots ++ (.lbrace lbrace :: r.newSpots t))
      (r.brace role desc lbrace t) := by
  have helements : Points r (role.spots ++ (.lbrace lbrace :: r.newSpots t))
      (r.elements ⟨role, desc, [⟨lbrace, []⟩], []⟩ t) := by
    refine (points_elements r _ t).mono ?_
    simp [RowLine.spots, Expr.allSpots]
  unfold brace
  split
  · rintro q ⟨⟩
    simp [spots, behind, Place.spots, OpenGroup.spots, Stmt.allSpots]
  · exact helements
  · exact helements
  · simp

theorem points_closed (r : Reader) (line : RowLine) (es : List Expr) (t : Token) :
    Points r (line.spots ++ (Expr.allSpots es ++ r.newSpots t)) (r.closed line es t) := by
  unfold closed
  split
  · refine points_goto ?_
    simp [Place.spots, Owner.spots, ArgumentPlace.spots, Expr.allSpots]
  · have helements := points_elements r (line.push (.row es [])) t
    simpa [spots_push, Expr.spots, Expr.allSpots] using helements

theorem points_groupClosed (r : Reader) (g : OpenGroup) (rbrace : Position) (lines : List Stmt)
    (t : Token) : Points r (g.closedSpots rbrace lines ++ r.newSpots t)
      (r.groupClosed g rbrace lines t) := by
  unfold groupClosed
  split
  · refine points_goto ?_
    simp [Place.spots, Owner.spots, ArgumentPlace.spots, Expr.allSpots]
  · have hline := points_lineEnd r (groupStmt g rbrace [] lines) t
    simpa [spots_groupStmt, Expr.allSpots] using hline

theorem spots_afterArgs (owner : Owner) (as : List Expr) :
    (afterArgs owner as).spots = owner.spots ++ Expr.allSpots as := by
  cases owner with
  | stitch line id => simp [afterArgs, Place.spots, Owner.spots, spots_push_stitch]
  | inlineRow line es => simp [afterArgs, Place.spots, Owner.spots, spots_push, Expr.spots]
  | group g rbrace lines => exact spots_groupStmt g rbrace as lines

variable (r t) (owner : Owner) (as : List Expr)

theorem points_gotoArgs {place : ArgumentPlace} {es : List Expr}
    (h : (Expr.allSpots es ++ place.spots).Sublist xs) :
    Points r (owner.spots ++ xs) (r.goto (.args owner es place)) :=
  points_goto (h.append_left _)

theorem points_sizeValue (before : Bool) (x : Expectation) :
    Points r (owner.spots ++ (Expr.allSpots as ++ r.newSpots t))
      (r.sizeValue owner as before t x) := by
  unfold sizeValue
  split
  · rename_i hk
    refine points_gotoArgs r owner ?_
    rw [newSpots_of_identifier hk]
    exact List.Sublist.refl _
  · rename_i hk
    split
    · rename_i ha
      refine points_gotoArgs r owner ?_
      simp [ArgumentPlace.spots, newSpots, Token.value?, hk, ha]
    · simp
  · rename_i hk
    refine points_gotoArgs r owner ?_
    simp [ArgumentPlace.spots, newSpots, Token.value?, hk, Expr.allSpots, Expr.spots]
  · simp

theorem points_argument : Points r (owner.spots ++ (Expr.allSpots as ++ r.newSpots t))
    (r.argument owner as t) := by
  unfold argument
  split
  · rename_i hk
    refine points_gotoArgs r owner ?_
    rw [newSpots_of_identifier hk]
    exact List.Sublist.refl _
  · refine points_gotoArgs r owner ?_
    simp [ArgumentPlace.spots]
  · exact points_sizeValue r t owner as false .argument

theorem points_afterArgument : Points r (owner.spots ++ (Expr.allSpots as ++ r.newSpots t))
    (r.afterArgument owner as t) := by
  unfold afterArgument
  split
  · refine points_gotoArgs r owner ?_
    simp [ArgumentPlace.spots]
  · refine points_goto ?_
    rw [spots_afterArgs, ← List.append_assoc]
    exact List.sublist_append_left _ _
  · simp

/-- The measure of a size adds nothing to its spot. -/
theorem points_afterValue (s : Size) :
    Points r (owner.spots ++ (Expr.allSpots as ++ (.value s.position s.amount :: r.newSpots t)))
      (r.afterValue owner as s t) := by
  have hnext := points_afterArgument r t owner (as ++ [.size s])
  simp only [Expr.allSpots_append, Expr.allSpots, Expr.spots, List.append_assoc,
    List.singleton_append, List.append_nil] at hnext
  have hmeasured (m : Measure) : Points r
      (owner.spots ++ (Expr.allSpots as ++ (.value s.position s.amount :: r.newSpots t)))
      (r.goto (.args owner (as ++ [.size { s with measure := m }]) .done)) := by
    refine points_gotoArgs r owner ?_
    simp [ArgumentPlace.spots, Expr.allSpots, Expr.spots]
  unfold afterValue
  split
  · exact hnext
  · exact hnext
  · exact hmeasured _
  · exact hmeasured _
  · split
    · exact hmeasured _
    · simp
  · simp

theorem points_args (place : ArgumentPlace) :
    Points r (owner.spots ++ (Expr.allSpots as ++ (place.spots ++ r.newSpots t)))
      (r.args owner as place t) := by
  cases place with
  | first =>
    simp only [args]
    split
    · refine points_goto ?_
      rw [spots_afterArgs, ← List.append_assoc]
      exact List.sublist_append_left _ _
    · exact points_argument r t owner as
  | next => exact points_argument r t owner as
  | minus => exact points_sizeValue r t owner as true .sizeValue
  | name id =>
    have hargument := points_afterArgument r t owner (as ++ [.ident id])
    simp only [Expr.allSpots_append, Expr.allSpots, Expr.spots, List.append_assoc,
      List.append_nil] at hargument
    simp only [args]
    split
    all_goals first
      | exact points_afterValue r t owner as ⟨id.position, .named id, .count, false⟩
      | exact hargument
  | value s => exact points_afterValue r t owner as s
  | done => exact points_afterArgument r t owner as

/-- A token adds at most its own spot behind those that are read. -/
theorem points_step : Points r (r.place.spots ++ r.newSpots t) (r.step t) := by
  rcases r with ⟨title, groups, ss, place⟩
  cases place with
  | between run desc => exact points_between _ run desc t rfl
  | word desc id => exact points_word _ desc id t
  | target desc lhs => exact points_target _ desc lhs t
  | body desc lhs => exact points_body _ desc lhs t
  | brace role desc lbrace =>
    have hbrace := points_brace ⟨title, groups, ss, .brace role desc lbrace⟩ role desc lbrace t
    rwa [← List.singleton_append, ← List.append_assoc] at hbrace
  | elements line => exact points_elements _ line t
  | stitch line id =>
    have hstitch := points_stitch ⟨title, groups, ss, .stitch line id⟩ line id t
    rwa [← List.singleton_append, ← List.append_assoc] at hstitch
  | closed line es =>
    have hclosed := points_closed ⟨title, groups, ss, .closed line es⟩ line es t
    rwa [← List.append_assoc] at hclosed
  | groupClosed g rbrace lines => exact points_groupClosed _ g rbrace lines t
  | args owner as place =>
    have hargs := points_args ⟨title, groups, ss, .args owner as place⟩ t owner as place
    rwa [← List.append_assoc (Expr.allSpots as), ← List.append_assoc owner.spots] at hargs
  | lineEnd s => exact points_lineEnd _ s t
  | commented s => exact points_ending _ s t

/-- The spots of tokens as they are read, from left to right. -/
def spotsOf (r : Reader) : List Token → List TextSpot
  | [] => []
  | t :: ts =>
    r.newSpots t ++ match r.step t with
      | .ok q => q.spotsOf ts
      | .error _ => []

variable {r t}

/-- What is read points to spots of the tokens, in their order. -/
theorem run_spots {ts : List Token} (h : r.run ts = .ok q) :
    q.spots.Sublist (r.spots ++ r.spotsOf ts) := by
  induction ts generalizing r with
  | nil =>
    cases h
    simp [spotsOf]
  | cons t ts ih =>
    obtain ⟨p, hp, h⟩ := exists_of_run_cons h
    have hstep := points_step r t p hp
    rw [← List.append_assoc] at hstep
    rw [spotsOf, hp, ← List.append_assoc]
    exact (ih h).trans (hstep.append_right _)

theorem positions_newSpots (r : Reader) (t : Token) :
    ((r.newSpots t).map TextSpot.position).Sublist [t.position] := by
  unfold newSpots
  split
  · exact List.Sublist.refl _
  · exact List.Sublist.refl _
  · exact List.nil_sublist _
  · cases t.value? with
    | none => exact List.nil_sublist _
    | some a => exact List.Sublist.refl _

theorem positions_spotsOf (r : Reader) (ts : List Token) :
    ((r.spotsOf ts).map TextSpot.position).Sublist (ts.map Token.position) := by
  induction ts generalizing r with
  | nil => exact List.nil_sublist _
  | cons t ts ih =>
    rw [spotsOf, List.map_append, List.map_cons, ← List.singleton_append]
    refine (positions_newSpots r t).append ?_
    cases r.step t with
    | error e => exact List.nil_sublist _
    | ok q => exact ih q

/-- Each of the spots is that of one token, where a reader takes it. -/
theorem exists_of_mem_spotsOf {ts : List Token} {s : TextSpot} (hs : s ∈ r.spotsOf ts) :
    ∃ pre t post q, ts = pre ++ t :: post ∧ r.run pre = .ok q ∧ s ∈ q.newSpots t := by
  induction ts generalizing r with
  | nil => cases hs
  | cons t ts ih =>
    rcases List.mem_append.mp hs with hs | hs
    · exact ⟨[], t, ts, r, rfl, rfl, hs⟩
    · cases hq : r.step t with
      | error e =>
        rw [hq] at hs
        cases hs
      | ok q =>
        rw [hq] at hs
        obtain ⟨pre, u, post, q', rfl, hpre, hs⟩ := ih hs
        exact ⟨t :: pre, u, post, q', rfl, (run_cons pre hq).trans hpre, hs⟩

end Reader
end KnittingPattern
