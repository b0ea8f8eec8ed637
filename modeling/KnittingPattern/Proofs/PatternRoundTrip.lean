import KnittingPattern.Proofs.BracketReading

/-! # Patterns read and written

A pattern that is read is in the grammar, and a pattern of the grammar is read back from its text,
decimal numbers apart.  Main theorem: `Pattern.accepts_grammar`. -/

namespace KnittingPattern

open Token (Kind)

namespace Reader

variable {Q : Reader → Prop} {r : Reader} {ls : List Lexeme} {line : RowLine} {t : Token}

theorem step_elements_identifier (ht : t.kind = .identifier) :
    (r.moved (.elements line)).step t = .ok (r.moved (.stitch line (identifier t))) := by
  simp [elements, ht]

theorem step_elements_leftBrace (ht : t.kind = .leftBrace) :
    (r.moved (.elements line)).step t = .ok (r.moved (openBrace line t.position)) := by
  simp [elements, ht]

/-- The brace that closes a row leads back to the line around it. -/
theorem step_elements_rightBrace {p : Position} {es : List Expr} (ht : t.kind = .rightBrace) :
    (r.moved (.elements ⟨line.role, line.desc, ⟨p, line.elements⟩ :: line.braces, es⟩)).step t =
      .ok (r.moved (.closed line es)) := by
  simp [elements, ht]

variable (explicit : Bool)

/-- What a line may begin with. -/
def beginning : List Kind := [.identifier, .leftBrace]

theorem Next.following (h : Next beginning ls) : Next following ls := h.mono (by decide)

theorem next_writtenElement {e : Expr} (h : e.isElement false) :
    Next beginning (e.writtenElement explicit) := by
  cases e with
  | stitch p name as => exact .cons _ rfl List.mem_cons_self
  | row es as => exact .cons _ rfl (by decide)
  | _ => cases h

theorem next_writtenElements {e : Expr} (es : List Expr) (h : e.isElement false) :
    Next beginning (Expr.writtenElements explicit (e :: es)) :=
  (next_writtenElement explicit h).append _

/-- The end of a row in braces, with its bracket list. -/
theorem reads_rowEnd (line : RowLine) {p : Position} (es' : List Expr) {as : List Expr}
    (ha : as.all (Expr.isArgument false))
    (hn : Next following ls)
    (h : ∀ as' : List Expr, as'.map Expr.unplaced = as.map Expr.plain →
      Reads Q (r.moved (.elements (line.push (.row es' as')))) ls) :
    Reads Q (r.moved (.elements ⟨line.role, line.desc, ⟨p, line.elements⟩ :: line.braces, es'⟩))
      (Lexeme.sign .rightBrace :: (Expr.writtenBrackets explicit as ++ ls)) :=
  .sign rfl (fun _ hu => step_elements_rightBrace hu) fun _ _ =>
    reads_brackets explicit (.inlineRow line es') ha hn h

mutual

theorem reads_element {e : Expr} (he : e.isElement false) {r : Reader} {line : RowLine}
    {ls : List Lexeme} (hn : Next following ls)
    (h : ∀ e' : Expr, e'.unplaced = e.plain → Reads Q (r.moved (.elements (line.push e'))) ls) :
    Reads Q (r.moved (.elements line)) (e.writtenElement explicit ++ ls) := by
  cases e with
  | stitch p name as =>
    obtain ⟨_, ha⟩ := (Bool.and_eq_true _ _).mp he
    refine .word (fun t ht _ => step_elements_identifier ht) fun t hl => ?_
    refine reads_brackets explicit (.stitch line (identifier t)) ha hn fun as' has' => ?_
    exact h (.stitch t.position (identifier t) as') (Expr.unplaced_stitch hl has')
  | row es as =>
    obtain ⟨hes, ha⟩ := (Bool.and_eq_true _ _).mp he
    rw [Expr.writtenElement, Expr.writtenBraces, List.cons_append, List.append_assoc,
      List.cons_append]
    refine .sign rfl (fun t ht => step_elements_leftBrace ht) fun t _ => ?_
    refine reads_elements hes (.cons _ rfl (by decide)) fun es' hes' => ?_
    refine reads_rowEnd explicit line es' ha hn fun as' has' => ?_
    exact h (.row es' as') (Expr.unplaced_row hes' has')
  | _ => cases he

theorem reads_elements {es : List Expr} (hes : Expr.areElements false es) {r : Reader}
    {line : RowLine} {ls : List Lexeme} (hn : Next following ls)
    (h : ∀ es' : List Expr, es'.map Expr.unplaced = es.map Expr.plain →
      Reads Q (r.moved (.elements { line with elements := line.elements ++ es' })) ls) :
    Reads Q (r.moved (.elements line)) (Expr.writtenElements explicit es ++ ls) := by
  cases es with
  | nil => simpa [Expr.writtenElements] using h [] rfl
  | cons e es =>
    obtain ⟨he, hes⟩ := (Bool.and_eq_true _ _).mp hes
    rw [Expr.writtenElements, List.append_assoc, List.append_assoc]
    refine reads_element he (.gap ?_) fun e' he' => .gap ?_
    · cases es with
      | nil => exact hn
      | cons e₂ es =>
        have he₂ := ((Bool.and_eq_true _ _).mp hes).1
        exact (next_writtenElements explicit es he₂).following.append ls
    · refine reads_elements hes hn fun es' hes' => ?_
      have hall := h (e' :: es') (by simp [he', hes'])
      rwa [RowLine.push, List.append_assoc]

end

theorem step_between_identifier (ht : t.kind = .identifier) :
    (r.moved (.between .none .none)).step t = .ok (r.moved (.word .none (identifier t))) := by
  simp [statement, ht]

theorem step_between_leftBrace (ht : t.kind = .leftBrace) :
    (r.moved (.between .none .none)).step t =
      .ok (r.moved (.brace .statement .none t.position)) := by
  simp [statement, ht]

theorem step_between_newline (ht : t.kind = .newline) :
    (r.moved (.between .none .none)).step t = .ok (r.moved (.between .none .none)) := by
  simp [statement, ht]

theorem step_word_becomes {id : Identifier} (ht : t.kind = .becomes) :
    (r.moved (.word .none id)).step t = .ok (r.moved (.target .none id)) := by
  simp [word, ht]

theorem step_word_equals {id : Identifier} (ht : t.kind = .equals) :
    (r.moved (.word .none id)).step t = .ok (r.moved (.body .none id)) := by
  simp [word, ht]

theorem step_target_identifier {id : Identifier} (ht : t.kind = .identifier) :
    (r.moved (.target .none id)).step t =
      .ok (r.moved (.lineEnd (.synonym id (identifier t) .none))) := by
  simp [target, ht]

theorem step_lineEnd_newline {s : Stmt} (ht : t.kind = .newline) :
    (r.moved (.lineEnd s)).step t = .ok (r.finish s) := by
  simp [lineEnd, ending, ht]

theorem step_elements_newline (hb : line.braces = []) (ht : t.kind = .newline) :
    (r.moved (.elements line)).step t = .ok (r.finish (rowStmt line)) := by
  simp [elements, ht, hb, lineEnd, ending, Kind.endsLine]

/-- A row that ends its line. -/
theorem reads_rowLine (role : Role) {p : Position} (es' : List Expr) {as : List Expr}
    (ha : as.all (Expr.isArgument false))
    (h : ∀ as' : List Expr, as'.map Expr.unplaced = as.map Expr.plain →
      Reads Q (r.finish (rowStmt ⟨role, .none, [], [.row es' as']⟩)) ls) :
    Reads Q (r.moved (.elements ⟨role, .none, [⟨p, []⟩], es'⟩))
      (Lexeme.sign .rightBrace :: (Expr.writtenBrackets explicit as ++
        Lexeme.sign .newline :: ls)) := by
  refine reads_rowEnd explicit ⟨role, .none, [], []⟩ es' ha (.cons _ rfl (by decide)) ?_
  exact fun as' has' => .sign rfl (fun t ht => step_elements_newline rfl ht) fun _ _ => h as' has'

theorem step_brace_newline {role : Role} {p : Position} (ht : t.kind = .newline) :
    (r.moved (.brace role .none p)).step t =
      .ok ⟨r.title, ⟨role, .none, p, r.statements⟩ :: r.groups, [], .between .none .none⟩ := by
  simp [brace, ht]

/-- The brace that closes a group leads back to the statements around it. -/
theorem step_between_rightBrace {g : OpenGroup} (hg : g.before = r.statements)
    {ss : List Stmt} (ht : t.kind = .rightBrace) :
    step ⟨r.title, g :: r.groups, ss, .between .none .none⟩ t =
      .ok (r.moved (.groupClosed g t.position ss)) := by
  simp [step, between, statement, ht, hg]
  rfl

/-- A group that ends its line, given that its lines are read back. -/
theorem reads_group {role : Role} {p : Position} {lines : List Stmt} {as : List Expr}
    (ha : as.all (Expr.isArgument false))
    (hread : ∀ (q : Reader) (ls' : List Lexeme),
      (∀ ss' : List Stmt, ss'.map Stmt.unplaced = lines.map Stmt.plain →
        Reads Q ({ q with statements := q.statements ++ ss' }.moved (.between .none .none)) ls') →
      Reads Q (q.moved (.between .none .none)) (Stmt.writtenLines explicit lines ++ ls'))
    (h : ∀ (rbrace : Position) (as' : List Expr) (ss' : List Stmt),
      as'.map Expr.unplaced = as.map Expr.plain →
      ss'.map Stmt.unplaced = lines.map Stmt.plain →
      Reads Q (r.finish (groupStmt ⟨role, .none, p, r.statements⟩ rbrace as' ss')) ls) :
    Reads Q (r.moved (.brace role .none p))
      (Stmt.writtenBody (Stmt.writtenLines explicit lines) ++
        Lexeme.sign .rightBrace :: (Expr.writtenBrackets explicit as ++
          Lexeme.sign .newline :: ls)) := by
  let g : OpenGroup := ⟨role, .none, p, r.statements⟩
  let inner : Reader := ⟨r.title, g :: r.groups, [], .between .none .none⟩
  refine .sign rfl (fun t ht => step_brace_newline ht) fun _ _ => ?_
  have hend := hread inner (Lexeme.sign .rightBrace :: (Expr.writtenBrackets explicit as ++
    Lexeme.sign .newline :: ls)) fun ss' hss' => ?_
  · cases hl : Stmt.writtenLines explicit lines with
    | nil =>
      rw [hl] at hend
      exact .sign rfl (fun t ht => step_between_newline (r := inner) ht) fun _ _ => hend
    | cons l ls' =>
      rw [hl] at hend
      exact hend
  · refine .sign rfl (fun t ht => step_between_rightBrace rfl ht) fun t _ => ?_
    refine reads_brackets explicit (.group g t.position ss') ha (.cons _ rfl (by decide)) ?_
    intro as' has'
    refine .sign rfl (fun u hu => step_lineEnd_newline hu) fun _ _ => ?_
    exact h t.position as' ss' has' hss'

theorem step_body_leftBrace {lhs : Identifier} (ht : t.kind = .leftBrace) :
    (r.moved (.body .none lhs)).step t =
      .ok (r.moved (.brace (.definition lhs) .none t.position)) := by
  simp [body, ht]

/-- A brace before an element is the brace of a row. -/
theorem step_brace_beginning {role : Role} {p : Position} (ht : t.kind ∈ beginning) :
    (r.moved (.brace role .none p)).step t =
      (r.moved (.elements ⟨role, .none, [⟨p, []⟩], []⟩)).step t := by
  have hk : t.kind = .identifier ∨ t.kind = .leftBrace := by simpa [beginning] using ht
  rcases hk with hk | hk <;> simp [brace, hk]

/-- The word `row` before a brace only tells that a row follows. -/
theorem step_word_row {id : Identifier} (hid : id.name = "row") (ht : t.kind = .leftBrace) :
    (r.moved (.word .none id)).step t =
      .ok (r.moved (.elements ⟨.statement, .none, [⟨t.position, []⟩], []⟩)) := by
  simp [word, ht, hid, elements, openBrace]

mutual

theorem reads_definition {e : Expr} (he : e.isDefinition false) {lhs : Identifier} {r : Reader}
    {ls : List Lexeme}
    (h : ∀ e' : Expr, e'.unplaced = e.plain → Reads Q (r.finish (.define lhs e' .none)) ls) :
    Reads Q (r.moved (.body .none lhs))
      (e.writtenDefinition explicit ++ Lexeme.sign .newline :: ls) := by
  cases e with
  | row es as =>
    obtain ⟨hes, ha⟩ := (Bool.and_eq_true _ _).mp he
    obtain ⟨hne, hes⟩ := (Bool.and_eq_true _ _).mp hes
    rw [Expr.writtenDefinition, Expr.writtenBraces, List.cons_append, List.append_assoc,
      List.cons_append]
    refine .sign rfl (fun t ht => step_body_leftBrace ht) fun t _ => ?_
    cases es with
    | nil => cases hne
    | cons e es =>
      have hn := next_writtenElements explicit es ((Bool.and_eq_true _ _).mp hes).1
      refine .of_step_eq (hn.append _) (fun u hu => step_brace_beginning hu) ?_
      refine reads_elements explicit hes (.cons _ rfl (by decide)) fun es' hes' => ?_
      refine reads_rowLine explicit (.definition lhs) es' ha fun as' has' => ?_
      exact h (.row es' as') (Expr.unplaced_row hes' has')
  | group lbrace rbrace as lines =>
    obtain ⟨hl, ha⟩ := (Bool.and_eq_true _ _).mp he
    rw [Expr.writtenDefinition, Expr.writtenBraces, List.cons_append, List.append_assoc,
      List.cons_append]
    refine .sign rfl (fun t ht => step_body_leftBrace ht) fun t _ => ?_
    refine reads_group explicit ha (fun _ _ => reads_lines hl) fun rb as' ss' has' hss' => ?_
    exact h (.group t.position rb as' ss') (Expr.unplaced_group has' hss')
  | _ => cases he

theorem reads_statement {s : Stmt} (hs : s.isLine false) {r : Reader} {ls : List Lexeme}
    (h : ∀ s' : Stmt, s'.unplaced = s.plain → Reads Q (r.finish s') ls) :
    Reads Q (r.moved (.between .none .none))
      (s.written explicit ++ Lexeme.sign .newline :: ls) := by
  cases s with
  | synonym lhs rhs desc =>
    refine .word (fun t ht _ => step_between_identifier ht) fun t htl => .blank ?_
    refine .sign rfl (fun u hu => step_word_becomes hu) fun _ _ => .blank ?_
    refine .word (fun u hu _ => step_target_identifier hu) fun u hul => ?_
    refine .sign rfl (fun v hv => step_lineEnd_newline hv) fun _ _ => ?_
    exact h (.synonym (identifier t) (identifier u) .none) (Stmt.unplaced_synonym htl hul)
  | define lhs rhs desc =>
    obtain ⟨_, hr⟩ := (Bool.and_eq_true _ _).mp hs
    refine .word (fun t ht _ => step_between_identifier ht) fun t htl => .blank ?_
    refine .sign rfl (fun u hu => step_word_equals hu) fun _ _ => .blank ?_
    refine reads_definition hr fun e' he' => ?_
    exact h (.define (identifier t) e' .none) (Stmt.unplaced_define htl he')
  | row es as desc =>
    obtain ⟨hes, ha⟩ := (Bool.and_eq_true _ _).mp hs
    rw [Stmt.written, Expr.writtenBraces, List.cons_append, List.cons_append, List.cons_append,
      List.append_assoc, List.cons_append]
    refine .word (fun t ht _ => step_between_identifier ht) fun t htl => .blank ?_
    refine .sign rfl (fun u hu => step_word_row htl hu) fun u _ => ?_
    refine reads_elements explicit hes (.cons _ rfl (by decide)) fun es' hes' => ?_
    refine reads_rowLine explicit .statement es' ha fun as' has' => ?_
    exact h (.row es' as' .none) (Stmt.unplaced_row hes' has')
  | group lbrace rbrace as lines desc =>
    obtain ⟨hl, ha⟩ := (Bool.and_eq_true _ _).mp hs
    rw [Stmt.written, Expr.writtenBraces, List.cons_append, List.append_assoc, List.cons_append]
    refine .sign rfl (fun t ht => step_between_leftBrace ht) fun t _ => ?_
    refine reads_group explicit ha (fun _ _ => reads_lines hl) fun rb as' ss' has' hss' => ?_
    exact h (.group t.position rb as' ss' .none) (Stmt.unplaced_group has' hss')
  | block ss start stop desc => cases hs

theorem reads_lines {ss : List Stmt} (hss : Stmt.areLines false ss) {r : Reader}
    {ls : List Lexeme}
    (h : ∀ ss' : List Stmt, ss'.map Stmt.unplaced = ss.map Stmt.plain →
      Reads Q ({ r with statements := r.statements ++ ss' }.moved (.between .none .none)) ls) :
    Reads Q (r.moved (.between .none .none)) (Stmt.writtenLines explicit ss ++ ls) := by
  cases ss with
  | nil => simpa [Stmt.writtenLines] using h [] rfl
  | cons s ss =>
    obtain ⟨hs, hss⟩ := (Bool.and_eq_true _ _).mp hss
    rw [Stmt.writtenLines, List.append_assoc, List.cons_append]
    refine reads_statement hs fun s' hs' => ?_
    refine reads_lines (r := r.finish s') hss fun ss' hss' => ?_
    have hall := h (s' :: ss') (by simp [hs', hss'])
    simpa [finish, moved] using hall

end

theorem next_written {s : Stmt} (hs : s.isLine false) : Next beginning (s.written explicit) := by
  cases s with
  | synonym lhs rhs desc => exact .cons _ rfl List.mem_cons_self
  | define lhs rhs desc => exact .cons _ rfl List.mem_cons_self
  | row es as desc => exact .cons _ rfl (by decide)
  | group lbrace rbrace as lines desc => exact .cons _ rfl (by decide)
  | block ss start stop desc => cases hs

/-- Without comments it does not matter that a pattern begins here. -/
theorem step_start (ht : t.kind ∈ .endOfInput :: beginning) :
    start.step t = (start.moved (.between .none .none)).step t := by
  have hk : t.kind = .endOfInput ∨ t.kind = .identifier ∨ t.kind = .leftBrace := by
    simpa [beginning] using ht
  rcases hk with hk | hk | hk <;> simp [start, step, between, hk, moved] <;> rfl

theorem step_between_endOfInput (hg : r.groups = []) (ht : t.kind = .endOfInput) :
    (r.moved (.between .none .none)).step t = .ok (r.moved (.between .none .none)) := by
  simp [statement, ht, hg]

/-- The statements of a pattern are read back from its lines. -/
theorem reads_pattern {ss : List Stmt} (hss : Stmt.areLines false ss) :
    Reads (fun q => q.statements.map Stmt.unplaced = ss.map Stmt.plain ∧ q.title = .none) start
      (Stmt.writtenLines explicit ss ++ [Lexeme.sign .endOfInput]) := by
  have hn : Next (.endOfInput :: beginning)
      (Stmt.writtenLines explicit ss ++ [Lexeme.sign .endOfInput]) := by
    cases ss with
    | nil => exact .cons [] rfl (by decide)
    | cons s ss =>
      have hs := ((Bool.and_eq_true _ _).mp hss).1
      rw [Stmt.writtenLines, List.append_assoc]
      exact ((next_written explicit hs).append _).mono (by decide)
  refine .of_step_eq hn (fun t ht => step_start ht) ?_
  refine reads_lines explicit hss fun ss' hss' => ?_
  exact .sign rfl (fun t ht => step_between_endOfInput rfl ht) fun _ _ => .nil ⟨hss', rfl⟩

end Reader

namespace Pattern

/-- A pattern of the grammar is read back from its text. -/
theorem ofText_text (explicit : Bool) {b : Block} (h : b.InGrammar false) :
    ∃ b', ofText (b.text explicit) = .ok b' ∧ b'.unplaced = b.unplaced := by
  obtain ⟨hlines, hbare⟩ := h
  let s := TokenStream.ofText (b.text explicit)
  have hts : (s.tokens ++ [s.last]).map Token.lexeme =
      Lexeme.inked (Stmt.writtenLines explicit b.statements ++ [Lexeme.sign .endOfInput]) := by
    have hv := TokenStream.map_lexeme_visible 0 (b.text explicit)
    rw [b.scan_text explicit hlines] at hv
    rw [List.map_append, Lexeme.inked, List.filter_append]
    exact congrArg (· ++ [Lexeme.sign .endOfInput]) hv
  obtain ⟨q, hq, hstmts, htitle⟩ := Reader.reads_pattern explicit hlines _ hts
  refine ⟨_, read_eq_ok hq, ?_⟩
  calc
    Block.unplaced ⟨q.statements, s.peek.position, s.last.position, q.title⟩
      = ⟨q.statements.map Stmt.unplaced, .start, .start, q.title⟩ := by
        simp only [Block.unplaced, Block.map, Stmt.mapAll_eq_map]
        rfl
    _ = ⟨b.statements.map Stmt.plain, .start, .start, .none⟩ := by rw [hstmts, htitle]
    _ = b.bare.unplaced := by
        rw [Block.bare, Block.unplaced, Block.map_map]
        simp only [Block.map, Stmt.mapAll_eq_map]
        rfl
    _ = b.unplaced := by rw [hbare]

/-- The patterns that are read are those of the grammar: what is read from any texts is in the
grammar once its descriptions are dropped, and every pattern of the grammar without decimal numbers
is read back from its text, up to positions. -/
theorem accepts_grammar :
    (∀ (texts : List String) (b : Block), ofSources texts = .ok b → b.bare.InGrammar true) ∧
      ∀ (explicit : Bool) (b : Block), b.InGrammar false →
        ∃ b', ofText (b.text explicit) = .ok b' ∧ b'.unplaced = b.unplaced :=
  ⟨fun _ _ h => inGrammar_of_ofSources h, fun explicit _ h => ofText_text explicit h⟩

/-- A synonym, a definition with an empty row in it, and a group with a row. -/
def ribbing : Block where
  statements := [
    .synonym ⟨.start, "k"⟩ ⟨.start, "knit"⟩ .none,
    .define ⟨.start, "rib"⟩
      (.row [.stitch .start ⟨.start, "k"⟩ [.size ⟨.start, .whole 12, .inches, true⟩],
        .row [] [.ident ⟨.start, "n"⟩]] []) .none,
    .group .start .start [.size ⟨.start, .unstated, .toEnd, false⟩]
      [.row [.stitch .start ⟨.start, "rib"⟩ []] [.size ⟨.start, .named ⟨.start, "n"⟩, .count, true⟩]
        .none] .none]
  start := .start
  stop := .start
  desc := .none

theorem accepts_grammar_ribbing : ribbing.InGrammar false ∧
    ∃ b, ofText (ribbing.text true) = .ok b ∧ b.unplaced = ribbing.unplaced ∧
      b.bare.InGrammar true := by
  have hg : ribbing.InGrammar false := ⟨by decide, rfl⟩
  obtain ⟨b, hb, hu⟩ := accepts_grammar.2 true ribbing hg
  exact ⟨hg, b, hb, hu, accepts_grammar.1 _ b hb⟩

end Pattern
end KnittingPattern
