import KnittingPattern.Command
import KnittingPattern.Proofs.OpenBraces

/-! # The first offending token

A reader that has not failed can always be led to the end of a pattern: open bracket lists, rows and
groups can be closed from any place.  So the tokens before the one an error is about are the
beginning of some pattern, and nothing that follows this token can change the error.  Main theorem:
`Pattern.read_blames_first`. -/

namespace KnittingPattern

open Token (Kind)

/-- A stream has one end of input, and ends with it. -/
def TokenStream.Ended (s : TokenStream) : Prop :=
  (∀ t ∈ s.tokens, t.kind ≠ .endOfInput) ∧ s.last.kind = .endOfInput

namespace Reader

theorem run_cons {r q : Reader} {t : Token} (ts : List Token) (h : r.step t = .ok q) :
    r.run (t :: ts) = q.run ts := by
  simp [run, h, bind, Except.bind]

theorem run_cons_error {r : Reader} {t : Token} {e : SyntaxError} (ts : List Token)
    (h : r.step t = .error e) : r.run (t :: ts) = .error e := by
  simp [run, h, bind, Except.bind]

theorem run_append {r q : Reader} {xs : List Token} (ys : List Token) (h : r.run xs = .ok q) :
    r.run (xs ++ ys) = q.run ys := by
  unfold run at h ⊢
  rw [List.foldlM_append, h]
  rfl

theorem exists_of_run_cons {r q : Reader} {t : Token} {ts : List Token}
    (h : r.run (t :: ts) = .ok q) : ∃ p, r.step t = .ok p ∧ p.run ts = .ok q := by
  cases hs : r.step t with
  | error e =>
    rw [run_cons_error ts hs] at h
    cases h
  | ok p => exact ⟨p, rfl, (run_cons ts hs).symm.trans h⟩

theorem exists_of_run_append {r q : Reader} {xs ys : List Token} (h : r.run (xs ++ ys) = .ok q) :
    ∃ p, r.run xs = .ok p ∧ p.run ys = .ok q := by
  induction xs generalizing r with
  | nil => exact ⟨r, rfl, h⟩
  | cons x xs ih =>
    obtain ⟨p, hp, h⟩ := exists_of_run_cons h
    rw [run_cons xs hp]
    exact ih h

/-- Where reading fails, it fails at one token. -/
theorem exists_of_run_error {r : Reader} {ts : List Token} {e : SyntaxError}
    (h : r.run ts = .error e) : ∃ pre t post q, ts = pre ++ t :: post ∧ r.run pre = .ok q ∧
      q.step t = .error e := by
  induction ts generalizing r with
  | nil => cases h
  | cons t ts ih =>
    cases hs : r.step t with
    | error e' =>
      obtain rfl : e' = e := by simpa [run, hs, bind, Except.bind] using h
      exact ⟨[], t, ts, r, rfl, rfl, hs⟩
    | ok q =>
      rw [run_cons ts hs] at h
      obtain ⟨pre, u, post, q', rfl, hpre, hu⟩ := ih h
      exact ⟨t :: pre, u, post, q', rfl, by rw [run_cons pre hs, hpre], hu⟩

/-- Some tokens can follow, behind which the input may end. -/
def Viable (r : Reader) : Prop :=
  ∃ ts, (∀ t ∈ ts, t.kind ≠ .endOfInput) ∧
    ∀ t, t.kind = .endOfInput → ∃ q, r.run (ts ++ [t]) = .ok q

/-- A token that may be written anywhere. -/
private def mark (k : Kind) : Token := ⟨k, "", .start, 0⟩

theorem Viable.of_step {r q : Reader} (k : Kind) (hk : k != .endOfInput)
    (h : r.step (mark k) = .ok q) (hq : q.Viable) : r.Viable := by
  obtain ⟨ts, hts, hend⟩ := hq
  refine ⟨mark k :: ts, List.forall_mem_cons.mpr ⟨bne_iff_ne.mp hk, hts⟩, ?_⟩
  intro t ht
  obtain ⟨q', hq'⟩ := hend t ht
  exact ⟨q', by rw [List.cons_append, run_cons _ h, hq']⟩

theorem between_eq_statement (r : Reader) (run : Run) (desc : Description) {t : Token}
    (hn : t.kind ≠ .newline) (hc : t.kind ≠ .comment) :
    r.between run desc t = r.statement desc t := by
  unfold between
  split <;> first | contradiction | rfl

/-- Between statements the innermost group can be closed, and without groups the input may end. -/
theorem viable_between (title : Description) (groups : List OpenGroup) (ss : List Stmt) (run : Run)
    (desc : Description) : Viable ⟨title, groups, ss, .between run desc⟩ := by
  induction groups generalizing ss run desc with
  | nil =>
    refine ⟨[], by simp, ?_⟩
    intro t ht
    have hs : step ⟨title, [], ss, .between run desc⟩ t =
        .ok ⟨title, [], ss, .between .none desc⟩ := by
      refine (between_eq_statement _ run desc (by simp [ht]) (by simp [ht])).trans ?_
      simp [statement, ht, goto]
    exact ⟨_, run_cons [] hs⟩
  | cons g groups ih =>
    have hs : step ⟨title, g :: groups, ss, .between run desc⟩ (mark .rightBrace) =
        .ok ⟨title, groups, g.before, .groupClosed g .start ss⟩ :=
      between_eq_statement _ run desc (by decide) (by decide)
    exact .of_step .rightBrace rfl hs (.of_step .newline rfl rfl (ih _ _ _))

/-- If braces can be closed as before an element of a row, the line can be ended. -/
theorem viable_closing (r : Reader) (line : RowLine)
    (h : ∀ t, t.kind = .newline ∨ t.kind = .rightBrace → r.step t = r.elements line t) :
    r.Viable := by
  induction hb : line.braces generalizing r line with
  | nil =>
    have hs : r.step (mark .newline) = .ok (r.finish (rowStmt line)) := by
      rw [h _ (.inl rfl)]
      simp [elements, mark, hb, Kind.endsLine, lineEnd, ending]
    exact .of_step .newline rfl hs (viable_between _ _ _ _ _)
  | cons b braces ih =>
    have hs : r.step (mark .rightBrace) = .ok { r with
        place := .closed { line with braces := braces, elements := b.before } line.elements } := by
      rw [h _ (.inr rfl)]
      simp [elements, mark, hb, goto]
    let line' : RowLine := { line with braces := braces, elements := b.before }
    refine .of_step .rightBrace rfl hs (ih _ (line'.push (.row line.elements [])) ?_ rfl)
    intro t ht
    have hl : t.kind ≠ .leftParen := by rcases ht with ht | ht <;> simp [ht]
    exact if_neg hl

theorem viable_afterArgs (r : Reader) (owner : Owner) (args : List Expr)
    (h : r.place = afterArgs owner args) : r.Viable := by
  rcases r with ⟨title, groups, ss, place⟩
  obtain rfl : place = _ := h
  cases owner with
  | stitch line id => exact viable_closing _ _ fun _ _ => rfl
  | inlineRow line es => exact viable_closing _ _ fun _ _ => rfl
  | group g rbrace lines => exact .of_step .newline rfl rfl (viable_between _ _ _ _ _)

/-- A bracket list can be closed at once or behind one more name. -/
theorem viable_args (title : Description) (groups : List OpenGroup) (ss : List Stmt)
    (owner : Owner) (as : List Expr) (place : ArgumentPlace) :
    Viable ⟨title, groups, ss, .args owner as place⟩ := by
  have hdone : ∀ as, Viable ⟨title, groups, ss, .args owner as .done⟩ := fun as =>
    .of_step .rightParen rfl rfl (viable_afterArgs _ owner as rfl)
  have hvalue : ∀ as s, Viable ⟨title, groups, ss, .args owner as (.value s)⟩ := fun as s =>
    .of_step .rightParen rfl rfl (viable_afterArgs _ owner (as ++ [Expr.size s]) rfl)
  have hname : ∀ as id, Viable ⟨title, groups, ss, .args owner as (.name id)⟩ := fun as id =>
    .of_step .rightParen rfl rfl (viable_afterArgs _ owner (as ++ [Expr.ident id]) rfl)
  cases place with
  | first => exact .of_step .rightParen rfl rfl (viable_afterArgs _ owner as rfl)
  | next => exact .of_step .identifier rfl rfl (hname _ _)
  | minus => exact .of_step .identifier rfl rfl (hvalue _ _)
  | name id => exact hname as id
  | value s => exact hvalue as s
  | done => exact hdone as

/-- Wherever the reader is, it can be led to the end of a pattern. -/
theorem viable (r : Reader) : r.Viable := by
  rcases r with ⟨title, groups, ss, place⟩
  cases place with
  | between run desc => exact viable_between title groups ss run desc
  | word desc id => exact .of_step .newline rfl rfl (viable_between _ _ _ _ _)
  | target desc lhs =>
    exact .of_step .identifier rfl rfl (.of_step .newline rfl rfl (viable_between _ _ _ _ _))
  | body desc lhs =>
    exact .of_step .identifier rfl rfl (.of_step .newline rfl rfl (viable_between _ _ _ _ _))
  | brace role desc lbrace => exact .of_step .newline rfl rfl (viable_between _ _ _ _ _)
  | elements line => exact viable_closing _ line fun _ _ => rfl
  | stitch line id =>
    refine viable_closing _ (line.push (.stitch id.position id [])) ?_
    intro t ht
    rcases ht with ht | ht <;> simp [step, stitch, ht]
  | closed line es =>
    refine viable_closing _ (line.push (.row es [])) ?_
    intro t ht
    have hl : t.kind ≠ .leftParen := by rcases ht with ht | ht <;> simp [ht]
    exact if_neg hl
  | groupClosed g rbrace lines => exact .of_step .newline rfl rfl (viable_between _ _ _ _ _)
  | args owner as place => exact viable_args title groups ss owner as place
  | lineEnd s => exact .of_step .newline rfl rfl (viable_between _ _ _ _ _)
  | commented s => exact .of_step .newline rfl rfl (viable_between _ _ _ _ _)

end Reader

/-- An error has the exit code of illegal characters exactly if the token it blames is illegal. -/
theorem SyntaxError.Blames.exitCode_eq_four_iff {e : SyntaxError} {t : Token}
    {opens : List Position} (h : e.Blames t opens) :
    CommandError.exitCode (.compile (.badSyntax e)) = 4 ↔ t.kind = .illegal := by
  cases e with
  | unexpected found literal position expected =>
    obtain ⟨rfl, -, -⟩ := h
    cases hk : t.kind <;> simp [CommandError.exitCode, CommandError.compileCode]
  | unclosedRow position opened =>
    simpa [CommandError.exitCode, CommandError.compileCode] using h.2.2
  | unclosedGroup position opened =>
    simpa [CommandError.exitCode, CommandError.compileCode] using h.2.2
  | invalidNumber literal position =>
    simpa [CommandError.exitCode, CommandError.compileCode] using h.2.2
  | unknownUnit literal position =>
    simpa [CommandError.exitCode, CommandError.compileCode] using h.2.2

namespace Pattern

theorem read_eq_ok {s : TokenStream} {r : Reader}
    (h : Reader.start.run (s.tokens ++ [s.last]) = .ok r) :
    read s = .ok ⟨r.statements, s.peek.position, s.last.position, r.title⟩ := by
  simp [read, h, bind, Except.bind, pure, Except.pure]

theorem exists_of_read_ok {s : TokenStream} {b : Block} (h : read s = .ok b) :
    ∃ r, Reader.start.run (s.tokens ++ [s.last]) = .ok r ∧
      b = ⟨r.statements, s.peek.position, s.last.position, r.title⟩ := by
  cases hr : Reader.start.run (s.tokens ++ [s.last]) with
  | error e => simp [read, hr, bind, Except.bind] at h
  | ok r =>
    rw [read_eq_ok hr] at h
    exact ⟨r, rfl, (Except.ok.inj h).symm⟩

theorem read_eq_error_iff {s : TokenStream} {e : SyntaxError} :
    read s = .error e ↔ Reader.start.run (s.tokens ++ [s.last]) = .error e := by
  cases h : Reader.start.run (s.tokens ++ [s.last]) <;>
    simp [read, h, bind, Except.bind, pure, Except.pure]

/-- What can be read goes on to a whole pattern. -/
theorem exists_read_of_run {r : Reader} {pre : List Token} (h : Reader.start.run pre = .ok r)
    (hpre : ∀ t ∈ pre, t.kind ≠ .endOfInput) :
    ∃ s : TokenStream, s.Ended ∧ pre <+: s.tokens ∧ ∃ b, read s = .ok b := by
  obtain ⟨ts, hts, hend⟩ := r.viable
  let stop : Token := ⟨.endOfInput, "", .start, 0⟩
  obtain ⟨q, hq⟩ := hend stop rfl
  refine ⟨⟨pre ++ ts, stop⟩, ⟨?_, rfl⟩, List.prefix_append pre ts, _, read_eq_ok (r := q) ?_⟩
  · exact List.forall_mem_append.mpr ⟨hpre, hts⟩
  · rw [List.append_assoc, Reader.run_append _ h, hq]

/-- An error blames one token of a stream.  The tokens before it begin some pattern, and every
stream that begins with them and this token has the same error.  The brace that the error says is
open is the innermost one unmatched before the token, and the exit code is that of illegal
characters exactly if the token is illegal. -/
def FirstOffence (s : TokenStream) (e : SyntaxError) : Prop :=
  ∃ pre t post, s.tokens ++ [s.last] = pre ++ t :: post ∧
    e.Blames t (Token.unmatched pre) ∧
    (∃ s' : TokenStream, s'.Ended ∧ pre <+: s'.tokens ∧ ∃ b, read s' = .ok b) ∧
    (∀ s' : TokenStream, pre ++ [t] <+: s'.tokens ++ [s'.last] → read s' = .error e) ∧
    (CommandError.exitCode (.compile (.badSyntax e)) = 4 ↔ t.kind = .illegal)

/-- No stream with an illegal token is a pattern, and the error of a stream that is none is about
its first offending token. -/
theorem read_blames_first (s : TokenStream) (hs : s.Ended) :
    ((∃ t ∈ s.tokens, t.kind = .illegal) → ∃ e, read s = .error e) ∧
      ∀ e, read s = .error e → FirstOffence s e := by
  constructor
  · rintro ⟨t, ht, hk⟩
    cases hr : Reader.start.run (s.tokens ++ [s.last]) with
    | error e => exact ⟨e, read_eq_error_iff.mpr hr⟩
    | ok r => exact absurd hk ((Reader.run_opens hr).2 t (List.mem_append_left _ ht))
  · intro e he
    obtain ⟨pre, t, post, q, hts, hpre, ht⟩ :=
      Reader.exists_of_run_error (read_eq_error_iff.mp he)
    have hb := q.step_fair t
    have hq : q.opens = Token.unmatched pre := (Reader.run_opens hpre).1
    rw [ht, hq] at hb
    have hpos : pre ++ (t :: post).dropLast = s.tokens := by
      simpa [List.dropLast_append_of_ne_nil] using (congrArg List.dropLast hts).symm
    refine ⟨pre, t, post, hts, hb, exists_read_of_run hpre ?_, ?_,
      SyntaxError.Blames.exitCode_eq_four_iff hb⟩
    · intro u hu
      exact hs.1 u (hpos ▸ List.mem_append_left _ hu)
    · rintro s' ⟨rest, hs'⟩
      rw [read_eq_error_iff, ← hs', List.append_assoc, Reader.run_append _ hpre]
      exact Reader.run_cons_error rest ht

/-- A row whose inner brace is open at the end of its line, in a group that is open at the end. -/
def openRow : TokenStream :=
  ⟨[⟨.leftBrace, "\x7b", ⟨1, 1⟩, 0⟩, ⟨.newline, "\n", ⟨1, 2⟩, 0⟩, ⟨.identifier, "k", ⟨2, 1⟩, 0⟩,
    ⟨.leftBrace, "\x7b", ⟨2, 3⟩, 0⟩, ⟨.identifier, "p", ⟨2, 4⟩, 0⟩, ⟨.newline, "\n", ⟨2, 5⟩, 0⟩],
    ⟨.endOfInput, "", ⟨3, 0⟩, 0⟩⟩

theorem read_blames_first_openRow : openRow.Ended ∧
    read openRow = .error (.unclosedRow ⟨2, 5⟩ ⟨2, 3⟩) ∧
    FirstOffence openRow (.unclosedRow ⟨2, 5⟩ ⟨2, 3⟩) :=
  have hs : openRow.Ended := ⟨by decide, rfl⟩
  ⟨hs, rfl, (read_blames_first openRow hs).2 _ rfl⟩

end Pattern
end KnittingPattern
