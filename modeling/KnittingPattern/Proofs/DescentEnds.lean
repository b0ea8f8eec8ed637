import KnittingPattern.Proofs.DescentLines
import KnittingPattern.Proofs.SourceTokens

/-! # Reading by descent comes to an end

Reading by descent comes to the same outcome as the machine that reads token by token, on all texts,
though the feed hands out the end of input for ever.  It takes that once at most: a round of a loop
takes another token or is the last one, and what nests is read behind a token that has been taken.
Main theorem: `Pattern.descent_ofSources`. -/

namespace KnittingPattern

open Token (Kind)
open Reader (At at_run)

namespace Descent

variable {α β σ : Type} {last t : Token} {o : Except SyntaxError Reader} {ts : List Token}

theorem none_extend (d : Description) : Description.none.extend d = d := by
  obtain ⟨_ | ⟨c, cs⟩⟩ := d <;> rfl

/-- A blank line behind the run of comments that begins a pattern makes a title of it. -/
theorem Collected.at_title {d : Description}
    (h : Collected o Reader.start .none true (d, true) ts) :
    At o (Reader.opening d .none .none) ts := by
  obtain ⟨h, hk⟩ := h
  rw [none_extend] at h
  obtain ⟨t, rest, rfl⟩ := h.exists_cons
  have hk : t.kind = .newline := hk t rfl
  refine h.switch ?_
  simp [Reader.opening, Reader.start, Reader.moved, Reader.step, Reader.between, Reader.statement,
    Reader.goto, hk]

theorem meets_opening (h : At o Reader.start ts) :
    Meets last o opening ts fun x rest => At o (Reader.opening x.1 .none x.2) rest := by
  obtain ⟨t, rest, rfl⟩ := h.exists_cons
  refine .peek ?_
  split
  next hk =>
    have hrun : At o (Reader.start.moved (.between (.comment true)
        (Description.none.extend (Description.none.push (Reader.comment t))))) rest :=
      h.take ((Reader.step_start_comment hk).trans (Reader.step_line_comment hk)) (by simp [hk])
    refine (meets_description_comment hk hrun).bind fun x rest _ hx => ?_
    obtain ⟨-, hx⟩ := hx
    obtain ⟨d, _ | _⟩ := x
    · have hd : At o (Reader.start.moved (.between .none (Description.none.extend d))) rest := hx
      rw [none_extend] at hd
      exact .pure hd
    · exact .pure hx.at_title
  next hk => exact .pure (h.switch (Reader.step_start_of_ne hk))

theorem meets_pattern (h : At o Reader.start ts) :
    Meets last o pattern ts fun b rest => rest = [] ∧ ∃ q, o = .ok q ∧
      b = ⟨q.statements, (ts.head?.getD last).position, last.position, q.title⟩ := by
  refine .look ((meets_opening h).bind fun x rest _ hopening => ?_)
  obtain ⟨title, pending⟩ := x
  have hamong : Among o (Reader.opening title .none pending) ⟨[], pending⟩ rest := hopening
  refine (meets_lines hamong).bind fun ss rest _ hss => ?_
  obtain ⟨rfl, p, hp⟩ := (completed_of_nil rfl).mp hss
  exact .look (.pure ⟨rfl, _, hp, rfl⟩)

/-- An act ends, and if it comes to an answer for which `goes` holds, it has taken a token other
than the end of input. -/
def Advances (goes : α → Prop) (act : Descent α) (i : Intake) : Prop :=
  ∃ x j taken, act i = some (x, j) ∧ j.taken = i.taken ++ taken ∧
    ∀ a, x = .ok a → goes a → ∃ t ∈ taken, t.kind ≠ .endOfInput

theorem Meets.advances {goes : α → Prop} {act : Descent α} {P : α → List Token → Prop} {i : Intake}
    (h : Meets last o act ts P)
    (hP : ∀ a rest, P a rest → goes a → rest.length < ts.length ∧ rest ≠ [])
    (hts : Token.Closed ts) (hi : i.Faces last ts) : Advances goes act i := by
  obtain ⟨x, j, taken, rest, hx, hj, rfl, -, hrest⟩ := h i hi
  refine ⟨x, j, taken, hx, hj, ?_⟩
  rintro a rfl hgoes
  obtain ⟨hlt, hne⟩ := hP a rest hrest hgoes
  cases taken with
  | nil => simp at hlt
  | cons t taken =>
    refine ⟨t, List.mem_cons_self, fun hk => hne ?_⟩
    exact (List.append_eq_nil_iff.mp (hts.tail_eq_nil hk)).2

/-- The loop goes on. -/
def Round.Continues : Round σ α → Prop
  | .again _ => True
  | .done _ => False

theorem Meets.advances_round {round : Descent (Round σ α)} {I : σ → List Token → Prop}
    {P : α → List Token → Prop} {i : Intake} (h : Meets last o round ts (GoesOn I P ts))
    (hI : ∀ s rest, I s rest → rest ≠ []) (hts : Token.Closed ts) (hi : i.Faces last ts) :
    Advances Round.Continues round i := by
  refine h.advances (fun x rest hx hgoes => ?_) hts hi
  cases x with
  | again s => exact ⟨hx.1, hI s rest hx.2⟩
  | done a => exact hgoes.elim

/-- A round of a loop that goes on, and a row in braces or a group that is read within another, have
taken a token, whatever has been read before them. -/
structure Progress (i : Intake) : Prop where
  argumentsRound : ∀ as, Advances Round.Continues (argumentsRound as) i
  bracedRound : ∀ lbrace es, Advances Round.Continues (bracedRound braced lbrace es) i
  rowRound : ∀ role desc es, Advances Round.Continues (rowRound role desc es) i
  descriptionRound : ∀ d, Advances Round.Continues (descriptionRound d) i
  linesRound : ∀ lbrace l, Advances Round.Continues (linesRound groupLines lbrace l) i
  braced : ∀ lbrace, Advances (fun _ => True) (braced lbrace) i
  group : ∀ role desc lbrace, Advances (fun _ => True) (group groupLines role desc lbrace) i

theorem meetsGroups_groupLines (n : Nat) : MeetsGroups last o groupLines n := by
  intro r lbrace ts _ hr h
  rw [groupLines, ← hr]
  exact meets_lines h

/-- Before any token the reader may be in a run of comments. -/
theorem exists_collecting (d : Description) (hts : Token.Closed ts) :
    ∃ o, Collecting o Reader.start .none false d ts := by
  cases ts with
  | nil => exact hts.elim
  | cons t rest =>
    by_cases hk : t.kind = .comment
    · exact ⟨_, t, rest, rfl, by rw [if_pos hk]; exact at_run _ (hts.tail (by simp [hk]))⟩
    · exact ⟨_, t, rest, rfl, by rw [if_neg hk]; exact at_run _ hts⟩

theorem progress {i : Intake} (hts : Token.Closed ts) (hi : i.Faces last ts) : Progress i where
  argumentsRound as := by
    let owner : Owner := .stitch ⟨.statement, .none, [], []⟩ ⟨.start, ""⟩
    have h := at_run (Reader.start.moved (.args owner as .next)) hts
    exact (meets_argumentsRound h).advances_round (fun _ _ h => h.ne_nil) hts hi
  bracedRound lbrace es := by
    have h : Within _ Reader.start ⟨.statement, .none, [], []⟩ lbrace es ts := at_run _ hts
    refine (meets_bracedRound (fun _ _ _ _ h => ?_) h).advances_round (fun _ _ h => ?_) hts hi
    · exact (meets_braced h).mono fun _ _ _ he => he.2
    · exact At.ne_nil h
  rowRound role desc es := by
    have h := at_run (Reader.start.moved (.elements ⟨role, desc, [], es⟩)) hts
    exact (meets_rowRound h).advances_round (fun _ _ h => h.ne_nil) hts hi
  descriptionRound d := by
    obtain ⟨o, h⟩ := exists_collecting d hts
    refine (meets_descriptionRound h).advances_round (fun _ _ h => ?_) hts hi
    obtain ⟨t, rest, rfl, -⟩ := h
    exact List.cons_ne_nil _ _
  linesRound lbrace l := by
    let groups : List OpenGroup := lbrace.toList.map (⟨.statement, .none, ·, []⟩)
    let r : Reader := { Reader.start with groups := groups }
    have hr : opened r = lbrace := by cases lbrace <;> rfl
    have h : Among _ r l ts := at_run _ hts
    rw [← hr]
    exact (meets_linesRound (meetsGroups_groupLines _) h).advances_round
      (fun _ _ h => At.ne_nil h) hts hi
  braced lbrace := by
    have h : Within _ Reader.start ⟨.statement, .none, [], []⟩ lbrace [] ts := at_run _ hts
    exact (meets_braced h).advances (fun _ _ he _ => ⟨he.1, he.2.ne_nil⟩) hts hi
  group role desc lbrace := by
    let g : OpenGroup := ⟨role, desc, lbrace, []⟩
    have h : Among _ { Reader.start with groups := g :: [] } ⟨[], .none⟩ ts := at_run _ hts
    exact (meets_group (meetsGroups_groupLines _) h (Nat.lt_succ_self _)).advances
      (fun _ _ hs _ => ⟨hs.1, hs.2.ne_nil⟩) hts hi

/-- Two readings of what nests do the same wherever all of `taken` has been taken. -/
def Agree (taken : List Token) (inner inner' : Position → Descent α) : Prop :=
  ∀ p (j : Intake), taken <+: j.taken → inner p j = inner' p j

theorem Agree.take {taken : List Token} {inner inner' : Position → Descent α}
    (h : Agree taken inner inner') (t : Token) : Agree (taken ++ [t]) inner inner' :=
  fun p j hj => h p j ((List.prefix_append _ _).trans hj)

/-- An act calls the reading of what nests only where it has taken a token that is not the end of
input: what the reading does elsewhere makes no difference. -/
def CallsBehind (act : (Position → Descent β) → Descent α) : Prop :=
  ∀ (i : Intake) (inner inner' : Position → Descent β),
    (∀ t : Token, t.kind ≠ .endOfInput → Agree (i.taken ++ [t]) inner inner') →
      act inner i = act inner' i

theorem bind_apply_congr {m m' : Descent α} {f : α → Descent β} {i : Intake} (h : m i = m' i) :
    (m >>= f) i = (m' >>= f) i := by
  show (m i).bind _ = (m' i).bind _
  rw [h]

theorem next_bind_apply (f : Token → Descent β) (i : Intake) : (next >>= f) i =
    f i.feed.next.1 ⟨i.feed.next.2, i.taken ++ [i.feed.next.1]⟩ :=
  rfl

theorem peek_bind_apply (f : Token → Descent β) (i : Intake) : (peek >>= f) i =
    f i.feed.peek.1 ⟨i.feed.peek.2, i.taken⟩ :=
  rfl

theorem callsBehind_bracedRound (lbrace : Position) (es : List Expr) :
    CallsBehind fun inner => bracedRound inner lbrace es := by
  intro i inner inner' h
  dsimp only
  rw [bracedRound, bracedRound, next_bind_apply, next_bind_apply]
  cases hk : i.feed.next.1.kind with
  | leftBrace => exact bind_apply_congr (h _ (by simp [hk]) _ _ (List.prefix_refl _))
  | _ => rfl

section

variable {inner inner' : Position → Descent (List Stmt)} {i : Intake} {role : Role}
variable {desc : Description}

theorem group_congr {lbrace : Position} (h : Agree i.taken inner inner') :
    group inner role desc lbrace i = group inner' role desc lbrace i :=
  bind_apply_congr (h lbrace i (List.prefix_refl _))

theorem brace_congr {lbrace : Position} (h : Agree i.taken inner inner') :
    brace inner role desc lbrace i = brace inner' role desc lbrace i := by
  rw [brace, brace, peek_bind_apply, peek_bind_apply]
  cases i.feed.peek.1.kind with
  | newline => exact group_congr h
  | _ => rfl

theorem body_congr {lhs : Identifier} (h : Agree i.taken inner inner') :
    body inner desc lhs i = body inner' desc lhs i := by
  rw [body, body, next_bind_apply, next_bind_apply]
  cases i.feed.next.1.kind with
  | leftBrace => exact brace_congr (h.take _)
  | _ => rfl

theorem word_congr {t : Token} (h : Agree i.taken inner inner') :
    word inner desc t i = word inner' desc t i := by
  rw [word, word, peek_bind_apply, peek_bind_apply]
  cases i.feed.peek.1.kind with
  | equals => exact body_congr (h.take _)
  | _ => rfl

theorem callsBehind_line (desc : Description) :
    CallsBehind fun inner => line inner desc := by
  intro i inner inner' h
  refine bind_apply_congr ?_
  rw [stmt, stmt, next_bind_apply, next_bind_apply]
  cases hk : i.feed.next.1.kind with
  | identifier => exact word_congr (h _ (by simp [hk]))
  | leftBrace => exact brace_congr (h _ (by simp [hk]))
  | _ => rfl

theorem callsBehind_linesRound (opened : Option Position) (l : Lines) :
    CallsBehind fun inner => linesRound inner opened l := by
  intro i inner inner' h
  have hline : line inner l.pending ⟨i.feed.peek.2, i.taken⟩ =
      line inner' l.pending ⟨i.feed.peek.2, i.taken⟩ := callsBehind_line _ _ _ _ h
  dsimp only
  rw [linesRound, linesRound, peek_bind_apply, peek_bind_apply]
  cases opened with
  | none =>
    cases i.feed.peek.1.kind with
    | newline | endOfSource | endOfInput | comment => rfl
    | _ => exact bind_apply_congr hline
  | some lbrace =>
    cases i.feed.peek.1.kind with
    | newline | endOfSource | endOfInput | comment | rightBrace => rfl
    | _ => exact bind_apply_congr hline

end

end Descent

theorem TokenStream.head?_all (s : TokenStream) :
    (s.tokens ++ [s.last]).head?.getD s.last = s.peek := by
  rw [peek]
  cases s.tokens <;> rfl

/-- The feed after a row of calls. -/
def TokenFeed.after (f : TokenFeed) (calls : List TokenFeed.Call) : TokenFeed :=
  calls.foldl (fun f c => (f.call c).2) f

namespace Intake

variable {last : Token} {ts taken : List Token} {f : TokenFeed}

theorem exists_faces_call (hlast : last.kind = .endOfInput) (hts : Token.Closed ts)
    (h : Faces ⟨f, taken⟩ last ts) (c : TokenFeed.Call) :
    ∃ ts, Token.Closed ts ∧ Faces ⟨(f.call c).2, taken⟩ last ts := by
  cases c with
  | peek => exact ⟨ts, hts, h.peek.2⟩
  | next =>
    cases ts with
    | nil => exact hts.elim
    | cons t ts =>
      have hnext : Faces ⟨f.next.2, taken⟩ last ts := h.next.2
      by_cases hk : t.kind = .endOfInput
      · obtain rfl := hts.tail_eq_nil hk
        refine ⟨[last], by simp [Token.Closed, hlast], fun n => (hnext n).trans ?_⟩
        cases n <;> rfl
      · exact ⟨ts, hts.tail hk, hnext⟩

theorem exists_faces_after (hlast : last.kind = .endOfInput) (hts : Token.Closed ts)
    (h : Faces ⟨f, taken⟩ last ts) (calls : List TokenFeed.Call) :
    ∃ ts, Token.Closed ts ∧ Faces ⟨f.after calls, taken⟩ last ts := by
  induction calls generalizing f ts with
  | nil => exact ⟨ts, hts, h⟩
  | cons c calls ih =>
    obtain ⟨ts', hts', h'⟩ := exists_faces_call hlast hts h c
    exact ih hts' h'

theorem faces_ofTexts (texts : List String) (taken : List Token) :
    Faces ⟨.ofTexts texts, taken⟩ (TokenStream.ofSources texts).last
      ((TokenStream.ofSources texts).tokens ++ [(TokenStream.ofSources texts).last]) := by
  intro n
  have hnone : (TokenFeed.ofTexts texts).held = none := TokenFeed.held_load _ _
  rw [TokenFeed.upcoming_of_none hnone, TokenFeed.unread_ofTexts, TokenStream.nth,
    List.getElem?_append]
  split
  · rfl
  next hn =>
    rw [List.getElem?_eq_none (Nat.le_of_not_lt hn)]
    cases n - (TokenStream.ofSources texts).tokens.length <;> rfl

end Intake

namespace Pattern

/-- Reading by descent comes to what the machine comes to that reads token by token.  It takes the
tokens of the texts in their order, all of them if they are a pattern, and the end of input once at
most.  Wherever the feed stands, each round of a loop takes a token that is not the end of input, or
the loop ends with it; so does each row in braces and each group that is read within another, and it
is read only behind such a token. -/
theorem descent_ofSources (texts : List String) :
    (TokenStream.ofSources texts).Ended ∧
    (∃ i : Intake, Descent.pattern ⟨.ofTexts texts, []⟩ = some (ofSources texts, i) ∧
      i.taken <+: (TokenStream.ofSources texts).tokens ++ [(TokenStream.ofSources texts).last] ∧
      ∀ b, ofSources texts = .ok b →
        i.taken = (TokenStream.ofSources texts).tokens ++ [(TokenStream.ofSources texts).last]) ∧
    (∀ calls taken, Descent.Progress ⟨(TokenFeed.ofTexts texts).after calls, taken⟩) ∧
    (∀ lbrace es, Descent.CallsBehind fun inner => Descent.bracedRound inner lbrace es) ∧
    ∀ lbrace l, Descent.CallsBehind fun inner => Descent.linesRound inner lbrace l := by
  have hended := TokenStream.ended_ofSources texts
  have hclosed := Token.closed_append_singleton hended.1 hended.2
  have hfaces := Intake.faces_ofTexts texts
  refine ⟨hended, ?_, fun calls taken => ?_, Descent.callsBehind_bracedRound,
    Descent.callsBehind_linesRound⟩
  · obtain ⟨x, i, taken, rest, hx, rfl, hall, -, h⟩ :=
      Descent.meets_pattern (at_run Reader.start hclosed) _ (hfaces [])
    rw [hall]
    cases x with
    | error e =>
      have hread : ofSources texts = .error e := read_eq_error_iff.mpr h
      rw [hread]
      exact ⟨i, hx, ⟨rest, rfl⟩, fun b hb => by cases hb⟩
    | ok b =>
      obtain ⟨rfl, q, hq, rfl⟩ := h
      rw [TokenStream.head?_all] at hx
      rw [ofSources, read_eq_ok hq]
      exact ⟨i, hx, ⟨[], rfl⟩, fun _ _ => (List.append_nil _).symm⟩
  · obtain ⟨ts, hts, h⟩ := Intake.exists_faces_after hended.2 hclosed (hfaces taken) calls
    exact Descent.progress hts h

/-- A group with a stitch, a row in braces and a comment, and a row in a second text. -/
def pouch : List String := ["\x7b\nk(2) \x7bp\x7d\n\x7d ; flap\n", "row k"]

theorem descent_ofSources_pouch : (∃ b, ofSources pouch = .ok b) ∧
    ∃ i : Intake, Descent.pattern ⟨.ofTexts pouch, []⟩ = some (ofSources pouch, i) ∧
      i.taken.map Token.kind = [.leftBrace, .newline, .identifier, .leftParen, .number, .rightParen,
        .leftBrace, .identifier, .rightBrace, .newline, .rightBrace, .comment, .newline,
        .endOfSource, .identifier, .identifier, .endOfInput] := by
  obtain ⟨-, ⟨i, hi, -, htaken⟩, -⟩ := descent_ofSources pouch
  have hread : ∃ b, ofSources pouch = .ok b := ⟨_, rfl⟩
  refine ⟨hread, i, hi, ?_⟩
  obtain ⟨b, hb⟩ := hread
  rw [htaken b hb]
  rfl

end Pattern
end KnittingPattern
