import KnittingPattern.Proofs.FirstOffence
import KnittingPattern.Proofs.LexemeCuts

/-! # What is read is in the grammar

Whatever tokens a reader has taken, the statements behind it are lines of the grammar, and so is
what it has read of the line it is in.  A definition must not become an empty row, so a line keeps
an element for it from its first token on.  Main theorems: `Reader.step_keeps`,
`Pattern.inGrammar_of_ofSources`. -/

namespace KnittingPattern

open Token (Kind)

theorem Decimal.splitSign_of_numberParts {cs : List Char} (h : cs.all Lexeme.isNumberPart) :
    Decimal.splitSign cs = (false, cs) := by
  unfold Decimal.splitSign
  split
  · cases h
  · cases h
  · rfl

/-- A number that is written without a sign is not negative. -/
theorem Decimal.int64?_bounds {cs : List Char} {n : Int} (h : cs.all Lexeme.isNumberPart)
    (hn : Decimal.int64? cs = some n) : 0 ≤ n ∧ n.toNat < Nat.pow 2 63 := by
  simp only [Decimal.int64?, Decimal.splitSign_of_numberParts h] at hn
  cases hd : Decimal.natural? cs with
  | none => simp [hd] at hn
  | some k =>
    simp only [hd, Option.bind_eq_bind, Option.bind_some, Bool.false_eq_true, if_false] at hn
    split at hn
    · cases hn
      rename_i hk
      exact ⟨Int.natCast_nonneg k, hk⟩
    · cases hn

/-- Amounts that can be written. -/
def Amount.InGrammar : Amount → Prop
  | .whole n => 0 ≤ n ∧ n.toNat < Nat.pow 2 63
  | .decimal _ => True
  | .named id => isWord id.name
  | .unstated => False

theorem Amount.inGrammar_of_number {literal : String} {a : Amount}
    (h : literal.toList.all Lexeme.isNumberPart) (ha : Reader.amount? literal = some a) :
    a.InGrammar ∧ ∀ id, a ≠ .named id := by
  unfold Reader.amount? at ha
  split at ha
  · cases ha
    exact ⟨Decimal.int64?_bounds h ‹_›, by simp⟩
  · obtain ⟨x, _, rfl⟩ := Option.map_eq_some_iff.mp ha
    exact ⟨trivial, by simp⟩

def Size.measured (s : Size) (m : Measure) : Size := { s with measure := m }

/-- A name needs a measure or `before`; the other amounts make sizes by themselves. -/
theorem Size.isWritten_of_amount {s : Size} (h : s.amount.InGrammar) (hm : s.measure ≠ .toEnd)
    (hn : (∃ id, s.amount = .named id) → s.measure ≠ .count ∨ s.before) : s.isWritten true := by
  rcases s with ⟨p, a, m, b⟩
  cases a with
  | whole n =>
    obtain ⟨hp, hl⟩ := h
    simpa [isWritten, hm, hp] using hl
  | decimal x => simpa [isWritten] using hm
  | named id => simpa [isWritten, hm] using ⟨h, hn ⟨id, rfl⟩⟩
  | unstated => cases h

theorem Measure.of_ofName? {name : String} {m : Measure} (h : Measure.ofName? name = some m) :
    m = .millimetres ∨ m = .centimetres := by
  simp only [Measure.ofName?] at h
  split at h
  · cases h
    exact .inl rfl
  · split at h
    · cases h
      exact .inr rfl
    · cases h

/-- The elements of a line that make a row with something in it. -/
def Expr.Filled : List Expr → Prop
  | [] => False
  | [.row [] _] => False
  | _ => True

theorem Expr.filled_concat {es : List Expr} (h : es ≠ []) (e : Expr) : Filled (es ++ [e]) := by
  match es with
  | [_] => simp [Filled]
  | _ :: _ :: _ => simp [Filled]

theorem Expr.filled_row {es : List Expr} (h : es ≠ []) (before args : List Expr) :
    Filled (before ++ [row es args]) := by
  cases before with
  | nil => cases es <;> simp_all [Filled]
  | cons e before => exact filled_concat (List.cons_ne_nil e before) _

theorem Expr.Filled.ne_nil {es : List Expr} (h : Filled es) : es ≠ [] := by
  rintro rfl
  exact h

/-- The elements of a line if all of its braces were closed at once. -/
def RowLine.outline (line : RowLine) : List Expr :=
  line.braces.foldl (fun es b => b.before ++ [Expr.row es []]) line.elements

/-- Braces around something make a row with something in it. -/
theorem RowLine.filled_outline {line : RowLine} (hb : line.braces ≠ []) (he : line.elements ≠ []) :
    Expr.Filled line.outline := by
  obtain ⟨role, desc, braces, es⟩ := line
  simp only [outline] at hb he ⊢
  induction braces generalizing es with
  | nil => contradiction
  | cons b bs ih =>
    cases bs with
    | nil => exact Expr.filled_row he b.before []
    | cons b' bs => exact ih _ (by simp) (by simp)

/-- The name of a definition is a word. -/
def Role.InGrammar : Role → Prop
  | .statement => True
  | .definition name => isWord name.name

/-- What is read of a line is in the grammar, and if it is a definition, of more than nothing. -/
structure RowLine.InGrammar (line : RowLine) : Prop where
  role : line.role.InGrammar
  elements : line.elements.all (Expr.isElement true)
  before : ∀ b ∈ line.braces, b.before.all (Expr.isElement true)
  filled : line.role ≠ .statement → Expr.Filled line.outline

namespace RowLine.InGrammar

variable {line : RowLine} {e : Expr}

theorem push (h : line.InGrammar) (he : e.isElement true) :
    (line.push e).InGrammar := by
  refine ⟨h.role, by simpa [RowLine.push, he] using h.elements, h.before, ?_⟩
  intro hr
  cases hb : line.braces with
  | nil =>
    have hf : Expr.Filled line.elements := by simpa [outline, hb] using h.filled hr
    simpa [outline, RowLine.push, hb] using Expr.filled_concat hf.ne_nil e
  | cons b bs => exact filled_outline (by simp [RowLine.push, hb]) (by simp [RowLine.push])

/-- The last element may be replaced by another one that makes as much of a row. -/
theorem replace {e' : Expr} (h : (line.push e).InGrammar) (he : e'.isElement true)
    (hf : ∀ before, Expr.Filled (before ++ [e]) → Expr.Filled (before ++ [e'])) :
    (line.push e').InGrammar := by
  refine ⟨h.role, ?_, h.before, ?_⟩
  · have hes := h.elements
    simp only [RowLine.push, List.all_append, Bool.and_eq_true] at hes ⊢
    exact ⟨hes.1, by simp [he]⟩
  · intro hr
    cases hb : line.braces with
    | nil => simpa [outline, RowLine.push, hb] using hf _ (by
        simpa [outline, RowLine.push, hb] using h.filled hr)
    | cons b bs => exact filled_outline (by simp [RowLine.push, hb]) (by simp [RowLine.push])

theorem last (h : (line.push e).InGrammar) : e.isElement true := by
  have he := h.elements
  simp only [RowLine.push, List.all_append, Bool.and_eq_true] at he
  simpa using he.2

theorem withRowArgs {es as : List Expr} (h : (line.push (.row es [])).InGrammar)
    (ha : as.all (Expr.isArgument true)) : (line.push (.row es as)).InGrammar := by
  have he := h.last
  simp only [Expr.isElement, Bool.and_eq_true] at he
  refine h.replace (by simp only [Expr.isElement, he, ha, Bool.and_self]) ?_
  intro before hf
  cases before with
  | nil => cases es <;> simp_all [Expr.Filled]
  | cons b before => exact Expr.filled_concat (List.cons_ne_nil b before) _

theorem withStitchArgs {p : Position} {id : Identifier} {as : List Expr}
    (h : (line.push (.stitch p id [])).InGrammar) (ha : as.all (Expr.isArgument true)) :
    (line.push (.stitch p id as)).InGrammar := by
  have he := h.last
  simp only [Expr.isElement, Bool.and_eq_true] at he
  refine h.replace (by simp only [Expr.isElement, he, ha, Bool.and_self]) ?_
  intro before _
  cases before with
  | nil => trivial
  | cons b before => exact Expr.filled_concat (List.cons_ne_nil b before) _

/-- Once its braces are closed, a line is a statement. -/
theorem isLine_rowStmt (h : line.InGrammar) (hb : line.braces = []) :
    (Reader.rowStmt line).isLine true := by
  have hf : line.role ≠ .statement → Expr.Filled line.elements := by
    simpa [outline, hb] using h.filled
  obtain ⟨es, as, he, ha, hne, hs⟩ : ∃ es as, es.all (Expr.isElement true) ∧
      as.all (Expr.isArgument true) ∧ (line.role ≠ .statement → es ≠ []) ∧
      Reader.rowStmt line = match line.role with
        | .statement => .row es as line.desc
        | .definition name => .define name (.row es as) line.desc := by
    by_cases hr : ∃ es as, line.elements = [.row es as]
    · obtain ⟨es, as, hr⟩ := hr
      have he := h.elements
      simp only [hr, List.all_cons, List.all_nil, Bool.and_true, Expr.isElement,
        Expr.areElements_eq_all, Bool.and_eq_true] at he
      refine ⟨es, as, he.1, he.2, ?_, ?_⟩
      · rintro hd rfl
        simpa [hr, Expr.Filled] using hf hd
      · cases hrole : line.role <;> simp [Reader.rowStmt, hr, hrole]
    · refine ⟨line.elements, [], h.elements, rfl, fun hd => (hf hd).ne_nil, ?_⟩
      unfold Reader.rowStmt
      split
      rename_i heq
      split at heq
      · exact absurd ⟨_, _, ‹_›⟩ hr
      · cases heq
        rfl
  rw [hs]
  have hw := h.role
  cases hr : line.role with
  | statement => simp only [Stmt.isLine, Expr.areElements_eq_all, he, ha, Bool.and_self]
  | definition name =>
    have hn : isWord name.name := by simpa [hr, Role.InGrammar] using hw
    have hes : es.isEmpty = false := List.isEmpty_eq_false_iff.mpr (hne (by simp [hr]))
    simp only [Stmt.isLine, Expr.isDefinition, Expr.areElements_eq_all, hn, hes, he, ha,
      Bool.not_false, Bool.and_self]

end RowLine.InGrammar

structure OpenGroup.InGrammar (g : OpenGroup) : Prop where
  role : g.role.InGrammar
  before : g.before.all (Stmt.isLine true)

/-- With any bracket list, what it belongs to is in the grammar. -/
def Owner.InGrammar : Owner → Prop
  | .stitch line id => (line.push (.stitch id.position id [])).InGrammar
  | .inlineRow line es => (line.push (.row es [])).InGrammar
  | .group g _ lines => g.InGrammar ∧ lines.all (Stmt.isLine true)

def ArgumentPlace.InGrammar : ArgumentPlace → Prop
  | .name id => isWord id.name
  | .value s => s.amount.InGrammar ∧ s.isWritten true
  | _ => True

/-- What is read of a line is in the grammar. -/
def Place.InGrammar : Place → Prop
  | .between _ _ => True
  | .word _ id | .target _ id | .body _ id => isWord id.name
  | .brace role _ _ => role.InGrammar
  | .elements line => line.InGrammar
  | .stitch line id => (line.push (.stitch id.position id [])).InGrammar
  | .closed line es => (line.push (.row es [])).InGrammar
  | .groupClosed g _ lines => g.InGrammar ∧ lines.all (Stmt.isLine true)
  | .args owner as place =>
    owner.InGrammar ∧ as.all (Expr.isArgument true) ∧ place.InGrammar
  | .lineEnd s | .commented s => s.isLine true

namespace Reader

/-- The statements behind a reader are in the grammar, also those around its open groups. -/
structure Behind (r : Reader) : Prop where
  statements : r.statements.all (Stmt.isLine true)
  groups : ∀ g ∈ r.groups, g.InGrammar

/-- All that is read is in the grammar. -/
structure InGrammar (r : Reader) : Prop extends r.Behind where
  place : r.place.InGrammar

/-- A reader that goes on goes on in the grammar. -/
def Keeps (x : Except SyntaxError Reader) : Prop := ∀ q, x = .ok q → q.InGrammar

@[simp] theorem keeps_error (e : SyntaxError) : Keeps (.error e) := by
  intro q h
  cases h

@[simp] theorem keeps_unexpected (t : Token) (x : Expectation) : Keeps (unexpected t x) :=
  keeps_error _

theorem keeps_ok {r : Reader} (h : r.InGrammar) : Keeps (.ok r) := by
  rintro q ⟨⟩
  exact h

variable {r : Reader} {t : Token}

theorem Behind.goto (hr : r.Behind) {p : Place} (hp : p.InGrammar) : Keeps (r.goto p) :=
  keeps_ok ⟨⟨hr.statements, hr.groups⟩, hp⟩

theorem Behind.finish (hr : r.Behind) {s : Stmt} (hs : s.isLine true) : (r.finish s).InGrammar := by
  refine ⟨⟨?_, hr.groups⟩, trivial⟩
  simpa [Reader.finish, hs] using hr.statements

theorem isWord_identifier (ht : t.Formed) (hk : t.kind = .identifier) :
    isWord (identifier t).name :=
  ht.1 hk

theorem isLine_groupStmt {g : OpenGroup} {rbrace : Position} {as : List Expr} {lines : List Stmt}
    (hg : g.InGrammar) (hl : lines.all (Stmt.isLine true)) (ha : as.all (Expr.isArgument true)) :
    (groupStmt g rbrace as lines).isLine true := by
  have hw := hg.role
  unfold groupStmt
  cases hr : g.role with
  | statement => simp only [Stmt.isLine, Stmt.areLines_eq_all, hl, ha, Bool.and_self]
  | definition name =>
    have hn : isWord name.name := by simpa [hr, Role.InGrammar] using hw
    simp only [Stmt.isLine, Expr.isDefinition, Stmt.areLines_eq_all, hn, hl, ha, Bool.and_self]

theorem isLine_withDesc (s : Stmt) (desc : Description) :
    (s.withDesc desc).isLine true = s.isLine true := by
  cases s <;> rfl

theorem keeps_statement (hr : r.Behind) (ht : t.Formed) (desc : Description) :
    Keeps (r.statement desc t) := by
  unfold statement
  split
  · exact hr.goto trivial
  · exact hr.goto trivial
  · exact hr.goto trivial
  · simp
  · simp
  · exact hr.goto trivial
  · rename_i g groups hg
    have hgs := hr.groups
    rw [hg] at hgs
    obtain ⟨hg, hgs⟩ := List.forall_mem_cons.mp hgs
    exact keeps_ok ⟨⟨hg.before, hgs⟩, hg, hr.statements⟩
  · exact hr.goto (isWord_identifier ht ‹_›)
  · exact hr.goto trivial
  · simp

theorem keeps_between (hr : r.Behind) (ht : t.Formed) (run : Run) (desc : Description) :
    Keeps (r.between run desc t) := by
  unfold between
  split
  · exact hr.goto trivial
  · exact hr.goto trivial
  · exact hr.goto trivial
  · exact keeps_ok ⟨⟨hr.statements, hr.groups⟩, trivial⟩
  · exact keeps_statement hr ht desc

theorem keeps_ending (hr : r.Behind) (ht : t.Formed) {s : Stmt} (hs : s.isLine true) :
    Keeps (r.ending s t) := by
  unfold ending
  split
  · exact keeps_ok (hr.finish hs)
  · split
    · exact keeps_statement (hr.finish hs).toBehind ht .none
    · simp

theorem keeps_lineEnd (hr : r.Behind) (ht : t.Formed) {s : Stmt} (hs : s.isLine true) :
    Keeps (r.lineEnd s t) := by
  unfold lineEnd
  split
  · refine hr.goto ?_
    rw [Place.InGrammar, isLine_withDesc]
    exact hs
  · exact keeps_ending hr ht hs

theorem inGrammar_stitch {line : RowLine} (hl : line.InGrammar) {id : Identifier}
    (hid : isWord id.name) : (line.push (.stitch id.position id [])).InGrammar :=
  hl.push (by simpa [Expr.isElement] using hid)

theorem keeps_elements (hr : r.Behind) (ht : t.Formed) {line : RowLine} (hl : line.InGrammar) :
    Keeps (r.elements line t) := by
  unfold elements
  split
  · exact hr.goto (inGrammar_stitch hl (isWord_identifier ht ‹_›))
  · have hrow : (line.push (.row [] [])).InGrammar := hl.push rfl
    refine hr.goto ⟨hl.role, rfl, ?_, hrow.filled⟩
    exact List.forall_mem_cons.mpr ⟨hl.elements, hl.before⟩
  · rename_i b braces hb
    have hbs := hl.before
    rw [hb] at hbs
    obtain ⟨hb', hbs⟩ := List.forall_mem_cons.mp hbs
    refine hr.goto ⟨hl.role, ?_, hbs, ?_⟩
    · have he := hl.elements
      simp only [RowLine.push, List.all_append, List.all_cons, List.all_nil, Expr.isElement,
        Expr.areElements_eq_all, hb', he, Bool.and_self]
    · simpa [RowLine.outline, RowLine.push, hb] using hl.filled
  · split
    · exact keeps_lineEnd hr ht (hl.isLine_rowStmt ‹_›)
    · simp
  · split <;> simp

theorem keeps_stitch (hr : r.Behind) (ht : t.Formed) {line : RowLine} {id : Identifier}
    (hl : (line.push (.stitch id.position id [])).InGrammar) : Keeps (r.stitch line id t) := by
  unfold stitch
  split
  · exact hr.goto ⟨hl, rfl, trivial⟩
  all_goals first | exact keeps_elements hr ht hl | simp

theorem inGrammar_row (desc : Description) : RowLine.InGrammar ⟨.statement, desc, [], []⟩ :=
  ⟨trivial, rfl, by simp, fun h => absurd rfl h⟩

theorem keeps_word (hr : r.Behind) (ht : t.Formed) (desc : Description) {id : Identifier}
    (hid : isWord id.name) : Keeps (r.word desc id t) := by
  have hs := inGrammar_stitch (inGrammar_row desc) hid
  unfold word
  split
  · exact hr.goto hid
  · exact hr.goto hid
  all_goals first
    | exact keeps_stitch hr ht hs
    | split
      · exact keeps_elements hr ht (inGrammar_row desc)
      · exact keeps_stitch hr ht hs
    | simp

theorem keeps_target (hr : r.Behind) (ht : t.Formed) (desc : Description) {lhs : Identifier}
    (hid : isWord lhs.name) : Keeps (r.target desc lhs t) := by
  unfold target
  split
  · refine hr.goto ?_
    simp only [Place.InGrammar, Stmt.isLine, hid, isWord_identifier ht ‹_›, Bool.and_self]
  · simp

theorem keeps_body (hr : r.Behind) (ht : t.Formed) (desc : Description) {lhs : Identifier}
    (hid : isWord lhs.name) : Keeps (r.body desc lhs t) := by
  unfold body
  split
  · exact hr.goto hid
  · refine hr.goto ⟨hid, ?_, by simp [RowLine.push], ?_⟩
    · simpa [RowLine.push, Expr.isElement] using isWord_identifier ht ‹_›
    · simp [RowLine.outline, RowLine.push, Expr.Filled]
  · simp

/-- Behind a brace stands a stitch or another brace, so there will be something within it. -/
theorem keeps_brace (hr : r.Behind) (ht : t.Formed) {role : Role} (hrole : role.InGrammar)
    (desc : Description) (lbrace : Position) : Keeps (r.brace role desc lbrace t) := by
  unfold brace
  split
  · exact keeps_ok ⟨⟨rfl, List.forall_mem_cons.mpr ⟨⟨hrole, hr.statements⟩, hr.groups⟩⟩, trivial⟩
  · rename_i hk
    simp only [elements, hk]
    refine hr.goto ⟨hrole, ?_, by simp [RowLine.push], ?_⟩
    · simpa [RowLine.push, Expr.isElement] using isWord_identifier ht hk
    · simp [RowLine.outline, RowLine.push, Expr.Filled]
  · rename_i hk
    simp only [elements, hk]
    exact hr.goto ⟨hrole, rfl, by simp, by simp [RowLine.outline, Expr.Filled]⟩
  · simp

theorem keeps_closed (hr : r.Behind) (ht : t.Formed) {line : RowLine} {es : List Expr}
    (hl : (line.push (.row es [])).InGrammar) : Keeps (r.closed line es t) := by
  unfold closed
  split
  · exact hr.goto ⟨hl, rfl, trivial⟩
  · exact keeps_elements hr ht hl

theorem keeps_groupClosed (hr : r.Behind) (ht : t.Formed) {g : OpenGroup} (rbrace : Position)
    {lines : List Stmt} (hg : g.InGrammar) (hl : lines.all (Stmt.isLine true)) :
    Keeps (r.groupClosed g rbrace lines t) := by
  unfold groupClosed
  split
  · exact hr.goto ⟨⟨hg, hl⟩, rfl, trivial⟩
  · exact keeps_lineEnd hr ht (isLine_groupStmt hg hl rfl)

variable {owner : Owner} {as : List Expr}

theorem all_isArgument_concat (ha : as.all (Expr.isArgument true)) {a : Expr}
    (h : a.isArgument true) : (as ++ [a]).all (Expr.isArgument true) := by
  simp only [List.all_append, ha, List.all_cons, h, List.all_nil, Bool.and_self]

theorem Behind.gotoArgs (hr : r.Behind) (ho : owner.InGrammar)
    (ha : as.all (Expr.isArgument true)) {place : ArgumentPlace} (hp : place.InGrammar) :
    Keeps (r.goto (.args owner as place)) :=
  hr.goto ⟨ho, ha, hp⟩

theorem inGrammar_afterArgs (ho : owner.InGrammar) (ha : as.all (Expr.isArgument true)) :
    (afterArgs owner as).InGrammar := by
  cases owner with
  | stitch line id => exact ho.withStitchArgs ha
  | inlineRow line es => exact ho.withRowArgs ha
  | group g rbrace lines => exact isLine_groupStmt ho.1 ho.2 ha

theorem keeps_sizeValue (hr : r.Behind) (ht : t.Formed) (ho : owner.InGrammar)
    (ha : as.all (Expr.isArgument true)) {before : Bool}
    (hb : t.kind = .identifier → before) (x : Expectation) :
    Keeps (r.sizeValue owner as before t x) := by
  unfold sizeValue
  split
  · have hw := isWord_identifier ht ‹_›
    exact hr.gotoArgs ho ha
      ⟨hw, Size.isWritten_of_amount hw (by simp) fun _ => .inr (hb ‹_›)⟩
  · split
    · obtain ⟨hg, hn⟩ := Amount.inGrammar_of_number (ht.2 ‹_›) ‹_›
      exact hr.gotoArgs ho ha
        ⟨hg, Size.isWritten_of_amount hg (by simp) fun ⟨id, hid⟩ => absurd hid (hn id)⟩
    · simp
  · exact hr.gotoArgs ho (all_isArgument_concat ha rfl) trivial
  · simp

theorem keeps_argument (hr : r.Behind) (ht : t.Formed) (ho : owner.InGrammar)
    (ha : as.all (Expr.isArgument true)) : Keeps (r.argument owner as t) := by
  unfold argument
  split
  · exact hr.gotoArgs ho ha (isWord_identifier ht ‹_›)
  · exact hr.gotoArgs ho ha trivial
  · exact keeps_sizeValue hr ht ho ha (fun h => absurd h ‹_›) _

theorem keeps_afterArgument (hr : r.Behind) (ho : owner.InGrammar)
    (ha : as.all (Expr.isArgument true)) : Keeps (r.afterArgument owner as t) := by
  unfold afterArgument
  split
  · exact hr.gotoArgs ho ha trivial
  · exact hr.goto (inGrammar_afterArgs ho ha)
  · simp

theorem keeps_measured (hr : r.Behind) (ho : owner.InGrammar)
    (ha : as.all (Expr.isArgument true)) {s : Size} (hs : s.amount.InGrammar) {m : Measure}
    (hc : m ≠ .count) (he : m ≠ .toEnd) :
    Keeps (r.goto (.args owner (as ++ [Expr.size (s.measured m)]) .done)) := by
  have hw : (s.measured m).isWritten true := Size.isWritten_of_amount hs he fun _ => .inl hc
  have has := all_isArgument_concat ha (a := .size (s.measured m)) hw
  exact hr.gotoArgs ho has trivial

theorem keeps_afterValue (hr : r.Behind) (ho : owner.InGrammar)
    (ha : as.all (Expr.isArgument true)) {s : Size} (hs : s.amount.InGrammar)
    (hend : t.kind = .comma ∨ t.kind = .rightParen → s.isWritten true) :
    Keeps (r.afterValue owner as s t) := by
  unfold afterValue
  split
  · exact keeps_afterArgument hr ho (all_isArgument_concat ha (hend (.inl ‹_›)))
  · exact keeps_afterArgument hr ho (all_isArgument_concat ha (hend (.inr ‹_›)))
  · exact keeps_measured hr ho ha hs (by decide) (by decide)
  · exact keeps_measured hr ho ha hs (by decide) (by decide)
  · split
    · rcases Measure.of_ofName? ‹_› with rfl | rfl
      · exact keeps_measured hr ho ha hs (by decide) (by decide)
      · exact keeps_measured hr ho ha hs (by decide) (by decide)
    · simp
  · simp

theorem keeps_args (hr : r.Behind) (ht : t.Formed) (ho : owner.InGrammar)
    (ha : as.all (Expr.isArgument true)) {place : ArgumentPlace} (hp : place.InGrammar) :
    Keeps (r.args owner as place t) := by
  cases place with
  | first =>
    simp only [args]
    split
    · exact hr.goto (inGrammar_afterArgs ho ha)
    · exact keeps_argument hr ht ho ha
  | next => exact keeps_argument hr ht ho ha
  | minus => exact keeps_sizeValue hr ht ho ha (fun _ => rfl) _
  | name id =>
    simp only [args]
    split
    all_goals first
      | exact keeps_afterValue hr ho ha hp (by simp [*])
      | exact keeps_afterArgument hr ho (all_isArgument_concat ha hp)
  | value s => exact keeps_afterValue hr ho ha hp.1 fun _ => hp.2
  | done => exact keeps_afterArgument hr ho ha

/-- A reader that has read nothing but lines of the grammar keeps to it. -/
theorem step_keeps (hr : r.InGrammar) (ht : t.Formed) : Keeps (r.step t) := by
  rcases r with ⟨title, groups, ss, place⟩
  obtain ⟨hb, hp⟩ := hr
  cases place with
  | between run desc => exact keeps_between hb ht run desc
  | word desc id => exact keeps_word hb ht desc hp
  | target desc lhs => exact keeps_target hb ht desc hp
  | body desc lhs => exact keeps_body hb ht desc hp
  | brace role desc lbrace => exact keeps_brace hb ht hp desc lbrace
  | elements line => exact keeps_elements hb ht hp
  | stitch line id => exact keeps_stitch hb ht hp
  | closed line es => exact keeps_closed hb ht hp
  | groupClosed g rbrace lines => exact keeps_groupClosed hb ht rbrace hp.1 hp.2
  | args owner as place => exact keeps_args hb ht hp.1 hp.2.1 hp.2.2
  | lineEnd s => exact keeps_lineEnd hb ht hp
  | commented s => exact keeps_ending hb ht hp

theorem run_keeps {ts : List Token} (hr : r.InGrammar) (hts : ∀ t ∈ ts, t.Formed) :
    Keeps (r.run ts) := by
  induction ts generalizing r with
  | nil => exact keeps_ok hr
  | cons t ts ih =>
    obtain ⟨ht, hts⟩ := List.forall_mem_cons.mp hts
    cases hs : r.step t with
    | error e => simp [run_cons_error ts hs]
    | ok q =>
      rw [run_cons ts hs]
      exact ih (step_keeps hr ht q hs) hts

theorem inGrammar_start : start.InGrammar := ⟨⟨rfl, by simp [start]⟩, trivial⟩

end Reader

/-- What is read from texts is in the grammar, once its descriptions are dropped. -/
theorem Pattern.inGrammar_of_ofSources {texts : List String} {b : Block}
    (h : ofSources texts = .ok b) : b.bare.InGrammar true := by
  obtain ⟨r, hr, rfl⟩ := exists_of_read_ok h
  have hk := Reader.run_keeps Reader.inGrammar_start (TokenStream.formed_ofSources texts) r hr
  exact Block.inGrammar_bare (by simpa using hk.statements)

/-- The statements of what is read are lines of the grammar. -/
theorem Pattern.areLines_of_ofSources {texts : List String} {b : Block}
    (h : ofSources texts = .ok b) : Stmt.areLines true b.statements := by
  simpa [Block.bare, Block.map, Stmt.all_isLine_map] using (inGrammar_of_ofSources h).1

end KnittingPattern
