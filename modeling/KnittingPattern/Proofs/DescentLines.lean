import KnittingPattern.Proofs.DescentRows

/-! # Lines and groups by descent

The acts that read descriptions, lines and groups go along with the machine that reads token by
token.  A group is read by the loop that reads the pattern around it, where the machine keeps a list
of the groups that are open.  Main theorems: `Descent.meets_description`, `Descent.meets_lines`. -/

namespace KnittingPattern.Descent

open Token (Kind)
open Reader (At)

variable {last t : Token} {o : Except SyntaxError Reader} {r : Reader} {ts : List Token}

section

variable {base d : Description} {title : Bool}

/-- A description that has begun takes a comment as well before it is added as after. -/
theorem push_extend (base : Description) {d : Description} (hd : d.comments ≠ []) (c : Comment) :
    (base.extend d).push c = base.extend (d.push c) := by
  obtain ⟨⟨_ | ⟨c', cs⟩⟩⟩ := d
  · contradiction
  · obtain ⟨_ | ⟨b, bs⟩⟩ := base <;> simp [Description.extend, Description.push]

theorem push_ne_nil (d : Description) (c : Comment) : (d.push c).comments ≠ [] := by
  simp [Description.push]

/-- Behind a comment nothing but the end of its line is special. -/
theorem step_comment {desc : Description} : (r.moved (.between (.comment title) desc)).step t =
    if t.kind = .newline then .ok (r.moved (.between (.line title) desc))
    else r.statement desc t := by
  split
  next hk => simp [Reader.step, Reader.moved, Reader.between, Reader.goto, hk]
  next hk =>
    have hbetween : r.between (.comment title) desc t = r.statement desc t := by
      simp [Reader.between, hk]
    exact hbetween

/-- Behind the line of a comment nothing but a comment and a line break are special. -/
theorem step_line {desc : Description} (hk : t.kind ≠ .newline) :
    (r.moved (.between (.line title) desc)).step t =
      if t.kind = .comment then
        .ok (r.moved (.between (.comment title) (desc.push (Reader.comment t))))
      else r.statement desc t := by
  split
  next hc => simp [Reader.step, Reader.moved, Reader.between, Reader.goto, hc]
  next hc =>
    have hbetween : r.between (.line title) desc t = r.statement desc t := by
      simp [Reader.between, hk, hc]
    exact hbetween

/-- The reader in a run of comments behind `base`, of which the act has read `d`. -/
def Collecting (o : Except SyntaxError Reader) (r : Reader) (base : Description) (title : Bool)
    (d : Description) (ts : List Token) : Prop :=
  ∃ t rest, ts = t :: rest ∧
    if t.kind = .comment then
      At o (r.moved (.between (.comment title) (base.extend (d.push (Reader.comment t))))) rest
    else At o (r.moved (.between .none (base.extend d))) ts

/-- The reader behind a run of comments; a blank line that ends it has still to be taken. -/
def Collected (o : Except SyntaxError Reader) (r : Reader) (base : Description) (title : Bool)
    (x : Description × Bool) (ts : List Token) : Prop :=
  if x.2 then
    At o (r.moved (.between (.line title) (base.extend x.1))) ts ∧
      ∀ t ∈ ts.head?, t.kind = .newline
  else At o (r.moved (.between .none (base.extend x.1))) ts

/-- Behind the line of a comment the run goes on with the next comment. -/
theorem collecting_of_line (hd : d.comments ≠ [])
    (h : At o (r.moved (.between (.line title) (base.extend d))) (t :: ts))
    (hk : t.kind ≠ .newline) : Collecting o r base title d (t :: ts) := by
  refine ⟨t, ts, rfl, ?_⟩
  split
  next hc =>
    rw [← push_extend base hd]
    exact h.take ((step_line hk).trans (if_pos hc)) (by simp [hc])
  next hc => exact h.switch ((step_line hk).trans (if_neg hc))

/-- A round that begins with a comment takes it. -/
theorem meets_descriptionRound_comment (hk : t.kind = .comment)
    (h : At o (r.moved (.between (.comment title) (base.extend (d.push (Reader.comment t))))) ts) :
    Meets last o (descriptionRound d) (t :: ts) fun x rest => rest.length < (t :: ts).length ∧
      GoesOn (Collecting o r base title) (Collected o r base title) (t :: ts) x rest := by
  refine .peek ?_
  rw [if_pos hk]
  refine .next ?_
  obtain ⟨u, rest, rfl⟩ := h.exists_cons
  refine .peek ?_
  split
  next hu =>
    have hline := h.take (step_comment.trans (if_pos hu)) (by simp [hu])
    obtain ⟨v, rest, rfl⟩ := hline.exists_cons
    refine .next (.peek ?_)
    split
    next hv => exact .pure ⟨by simp, hline, by simp [hv]⟩
    next hv => exact .pure ⟨by simp, by simp, collecting_of_line (push_ne_nil _ _) hline hv⟩
  next hu => exact .pure ⟨by simp, h.switch (step_comment.trans (if_neg hu))⟩

theorem meets_descriptionRound (h : Collecting o r base title d ts) :
    Meets last o (descriptionRound d) ts
      (GoesOn (Collecting o r base title) (Collected o r base title) ts) := by
  obtain ⟨t, rest, rfl, h⟩ := h
  by_cases hk : t.kind = .comment
  · rw [if_pos hk] at h
    exact (meets_descriptionRound_comment hk h).mono fun x rest _ hx => hx.2
  · rw [if_neg hk] at h
    refine .peek ?_
    rw [if_neg hk]
    exact .pure h

theorem meets_description (h : Collecting o r base title d ts) :
    Meets last o (description d) ts (Collected o r base title) :=
  .loop (fun _ _ h => meets_descriptionRound h) h

theorem meets_description_comment (hk : t.kind = .comment)
    (h : At o (r.moved (.between (.comment title) (base.extend (d.push (Reader.comment t))))) ts) :
    Meets last o (description d) (t :: ts) fun x rest => rest.length < (t :: ts).length ∧
      Collected o r base title x rest := by
  rw [description, loop, Round.rest]
  refine (meets_descriptionRound_comment hk h).bind fun x rest _ hx => ?_
  obtain ⟨hlt, hx⟩ := hx
  cases x with
  | done x =>
    rw [Round.rest]
    exact .pure ⟨hlt, hx⟩
  | again d =>
    exact (meets_description hx.2).mono fun x _ hrest hx => ⟨hrest.length_le.trans_lt hlt, hx⟩

/-- A run that is no title makes no difference behind it. -/
theorem Collected.at_none {x : Description × Bool} (h : Collected o r base false x ts) :
    At o (r.moved (.between .none (base.extend x.1))) ts := by
  obtain ⟨d, _ | _⟩ := x
  · exact h
  · obtain ⟨h, hk⟩ := h
    obtain ⟨t, rest, rfl⟩ := h.exists_cons
    have hk : t.kind = .newline := hk t rfl
    refine h.switch ?_
    have hbetween : r.between (.line false) (base.extend d) t = r.statement (base.extend d) t := by
      simp [Reader.between, hk]
    exact hbetween

end

variable {role : Role} {desc : Description} {s : Stmt}

theorem meets_remark (h : At o (r.moved (.lineEnd s)) ts) :
    Meets last o remark ts fun c rest => ∃ p, At o (r.moved p) rest ∧
      ∀ t ∈ rest.head?, (r.moved p).step t = r.ending (s.remarked c) t := by
  obtain ⟨t, rest, rfl⟩ := h.exists_cons
  refine .peek ?_
  split
  next hk =>
    refine .next (.pure ⟨.commented (s.remarked (some (Reader.comment t))), h.take ?_ ?_, ?_⟩)
    · simp [Reader.lineEnd, hk, Stmt.remarked]
    · simp [hk]
    · exact fun _ _ => rfl
  next hk =>
    refine .pure ⟨_, h, fun u hu => ?_⟩
    obtain rfl : t = u := by simpa using hu
    simp [Reader.lineEnd, hk, Stmt.remarked]

theorem meets_lineEnd (h : At o (r.moved (.lineEnd s)) ts) :
    Meets last o lineEnd ts fun c rest => At o (r.finish (s.remarked c)) rest := by
  refine (meets_remark h).bind fun c rest _ hc => ?_
  obtain ⟨p, hp, hs⟩ := hc
  obtain ⟨t, rest, rfl⟩ := hp.exists_cons
  have hs := hs t rfl
  refine .peek ?_
  cases hk : t.kind with
  | newline => exact .next (.pure (hp.take (by simp [hs, Reader.ending, hk]) (by simp [hk])))
  | endOfSource | endOfInput =>
    refine .pure (hp.switch (hs.trans ?_))
    simp [Reader.ending, hk, Kind.endsSource, Reader.step, Reader.finish, Reader.between]
  | _ =>
    refine .next (.error (hp.reject (hs.trans ?_)))
    simp [Reader.ending, hk, Kind.endsSource, Reader.unexpected]

/-- The reader between the lines of the pattern or of the innermost group. -/
def Among (o : Except SyntaxError Reader) (r : Reader) (l : Lines) (ts : List Token) : Prop :=
  At o { r with statements := l.statements, place := .between .none l.pending } ts

/-- What the lines come to: those of a group end before the brace that closes it, and those of a
pattern with the end of input. -/
def Completed (o : Except SyntaxError Reader) (r : Reader) (ss : List Stmt) (ts : List Token) :
    Prop :=
  match r.groups with
  | [] => ts = [] ∧ ∃ p, o = .ok { r with statements := ss, place := p }
  | _ :: _ => ∃ desc, Among o r ⟨ss, desc⟩ ts ∧ ∀ t ∈ ts.head?, t.kind = .rightBrace

theorem completed_of_nil {ss : List Stmt} (hg : r.groups = []) :
    Completed o r ss ts ↔ ts = [] ∧ ∃ p, o = .ok { r with statements := ss, place := p } := by
  unfold Completed
  split
  · rfl
  · simp_all

theorem completed_of_cons {ss : List Stmt} (hg : r.groups ≠ []) :
    Completed o r ss ts ↔
      ∃ desc, Among o r ⟨ss, desc⟩ ts ∧ ∀ t ∈ ts.head?, t.kind = .rightBrace := by
  unfold Completed
  split
  · simp_all
  · rfl

/-- The innermost group that is open. -/
def opened (r : Reader) : Option Position := r.groups.head?.map OpenGroup.lbrace

/-- `inner` reads the statements of groups, where fewer than `n` tokens are left. -/
def MeetsGroups (last : Token) (o : Except SyntaxError Reader)
    (inner : Position → Descent (List Stmt)) (n : Nat) : Prop :=
  ∀ r lbrace ts, ts.length < n → opened r = some lbrace → Among o r ⟨[], .none⟩ ts →
    Meets last o (inner lbrace) ts (Completed o r)

section

variable {inner : Position → Descent (List Stmt)} {n : Nat}

theorem meets_group {lbrace : Position} (hinner : MeetsGroups last o inner n)
    (h : Among o { r with groups := ⟨role, desc, lbrace, r.statements⟩ :: r.groups } ⟨[], .none⟩ ts)
    (hn : ts.length < n) :
    Meets last o (group inner role desc lbrace) ts fun s rest =>
      rest.length < ts.length ∧ At o (r.moved (.lineEnd s)) rest := by
  refine (hinner _ lbrace _ hn rfl h).bind fun ss rest hrest hcompleted => ?_
  obtain ⟨pending, hss, hbrace⟩ := hcompleted
  obtain ⟨u, rest, rfl⟩ := hss.exists_cons
  have hu : u.kind = .rightBrace := hbrace u rfl
  let g : OpenGroup := ⟨role, desc, lbrace, r.statements⟩
  have hclosed := hss.take (q := r.moved (.groupClosed g u.position ss))
    (by simp [Reader.step, Reader.between, Reader.statement, hu, Reader.moved, g]) (by simp [hu])
  refine .next ((meets_bracketsIfAny (.group g u.position ss) (fun v => ?_) hclosed).bind
    fun as rest' hrest' has => .pure ⟨?_, has⟩)
  · simp [Reader.groupClosed, Reader.afterArgs]
  · exact (Nat.lt_succ_of_le hrest'.length_le).trans_le hrest.length_le

theorem meets_brace {lbrace : Position} (hinner : MeetsGroups last o inner n)
    (h : At o (r.moved (.brace role desc lbrace)) ts) (hn : ts.length < n) :
    Meets last o (brace inner role desc lbrace) ts fun s rest =>
      At o (r.moved (.lineEnd s)) rest := by
  obtain ⟨t, rest, rfl⟩ := h.exists_cons
  refine .peek ?_
  cases hk : t.kind with
  | newline =>
    refine (meets_group hinner (h.switch ?_) hn).mono fun s _ _ hs => hs.2
    refine (Reader.step_brace _ _ _ _ _).trans ?_
    simp [Reader.brace, hk, Reader.step, Reader.between, Reader.statement, Reader.goto]
  | identifier | leftBrace =>
    have hwithin : Within o r ⟨role, desc, [], []⟩ lbrace [] (t :: rest) :=
      h.switch (by simp [Reader.brace, hk])
    exact (meets_braced hwithin).bind fun e _ _ he => meets_row he.2
  | _ => exact .next (.error (h.reject (by simp [Reader.brace, hk, Reader.unexpected])))

theorem meets_body {lhs : Identifier} (hinner : MeetsGroups last o inner n)
    (h : At o (r.moved (.body desc lhs)) ts) (hn : ts.length < n) :
    Meets last o (body inner desc lhs) ts fun s rest => At o (r.moved (.lineEnd s)) rest := by
  obtain ⟨t, rest, rfl⟩ := h.exists_cons
  refine .next ?_
  cases hk : t.kind with
  | leftBrace =>
    exact meets_brace hinner (h.take (by simp [Reader.body, hk]) (by simp [hk]))
      ((Nat.lt_succ_self _).trans hn)
  | identifier =>
    exact (meets_stitch (h.take (by simp [Reader.body, hk]; rfl) (by simp [hk]))).bind
      fun e _ _ he => meets_row he
  | _ => exact .error (h.reject (by simp [Reader.body, hk, Reader.unexpected]))

/-- A row that begins with a stitch. -/
theorem meets_stitchRow
    (h : At o (r.moved (.stitch ⟨role, desc, [], []⟩ (Reader.identifier t))) ts) :
    Meets last o (do row role desc [← stitch t]) ts fun s rest =>
      At o (r.moved (.lineEnd s)) rest :=
  (meets_stitch h).bind fun _ _ _ he => meets_row he

theorem meets_word (hinner : MeetsGroups last o inner n)
    (h : At o (r.moved (.word desc (Reader.identifier t))) ts) (hn : ts.length < n) :
    Meets last o (word inner desc t) ts fun s rest => At o (r.moved (.lineEnd s)) rest := by
  obtain ⟨u, rest, rfl⟩ := h.exists_cons
  refine .peek ?_
  cases hk : u.kind with
  | becomes =>
    have htarget := h.take (q := r.moved (.target desc (Reader.identifier t)))
      (by simp [Reader.word, hk]) (by simp [hk])
    obtain ⟨v, rest, rfl⟩ := htarget.exists_cons
    refine .next (.next ?_)
    split
    next hv => exact .pure (htarget.take (by simp [Reader.target, hv]) (by simp [hv]))
    next hv => exact .error (htarget.reject (by simp [Reader.target, hv, Reader.unexpected]))
  | equals =>
    exact .next (meets_body hinner (h.take (by simp [Reader.word, hk]) (by simp [hk]))
      ((Nat.lt_succ_self _).trans hn))
  | identifier | leftBrace =>
    dsimp only
    split
    next hrow => exact meets_row (h.switch (by simp [Reader.word, hk, Reader.identifier, hrow]))
    next hrow =>
      exact meets_stitchRow (h.switch (by simp [Reader.word, hk, Reader.identifier, hrow]))
  | leftParen | comment | newline | endOfSource | endOfInput =>
    exact meets_stitchRow (h.switch (by simp [Reader.word, hk]))
  | _ => exact .next (.error (h.reject (by simp [Reader.word, hk, Reader.unexpected])))

/-- A statement is read wherever no other token than its first is asked for. -/
theorem meets_stmt (hinner : MeetsGroups last o inner n)
    (hs : t.kind ≠ .identifier → t.kind ≠ .leftBrace →
      r.statement desc t = Reader.unexpected t .statement)
    (h : At o (r.moved (.between .none desc)) (t :: ts)) (hn : ts.length < n) :
    Meets last o (stmt inner desc) (t :: ts) fun s rest =>
      rest.length < (t :: ts).length ∧ At o (r.moved (.lineEnd s)) rest := by
  refine .next ?_
  cases hk : t.kind with
  | identifier =>
    have hword := h.take (q := r.moved (.word desc (Reader.identifier t)))
      (by simp [Reader.statement, hk]) (by simp [hk])
    exact (meets_word hinner hword hn).mono fun s rest hrest hs =>
      ⟨Nat.lt_succ_of_le hrest.length_le, hs⟩
  | leftBrace =>
    have hbrace := h.take (q := r.moved (.brace .statement desc t.position))
      (by simp [Reader.statement, hk]) (by simp [hk])
    exact (meets_brace hinner hbrace hn).mono fun s rest hrest hs =>
      ⟨Nat.lt_succ_of_le hrest.length_le, hs⟩
  | _ => exact .error (h.reject (hs (by simp [hk]) (by simp [hk])))

theorem meets_line (hinner : MeetsGroups last o inner n)
    (hs : t.kind ≠ .identifier → t.kind ≠ .leftBrace →
      r.statement desc t = Reader.unexpected t .statement)
    (h : At o (r.moved (.between .none desc)) (t :: ts)) (hn : ts.length < n) :
    Meets last o (line inner desc) (t :: ts) fun s rest =>
      rest.length < (t :: ts).length ∧ At o (r.finish s) rest :=
  (meets_stmt hinner hs h hn).bind fun _ _ _ hs => (meets_lineEnd hs.2).bind
    fun _ _ hrest hc => .pure ⟨hrest.length_le.trans_lt hs.1, hc⟩

theorem meets_linesRound {l : Lines} (hinner : MeetsGroups last o inner ts.length)
    (h : Among o r l ts) :
    Meets last o (linesRound inner (opened r) l) ts (GoesOn (Among o r) (Completed o r) ts) := by
  obtain ⟨t, rest, rfl⟩ := h.exists_cons
  let q : Reader := { r with statements := l.statements }
  have hq : At o (q.moved (.between .none l.pending)) (t :: rest) := h
  have hline (hs : t.kind ≠ .identifier → t.kind ≠ .leftBrace →
      q.statement l.pending t = Reader.unexpected t .statement) :
      Meets last o (do return Round.again ⟨l.statements ++ [← line inner l.pending], .none⟩)
        (t :: rest) (GoesOn (Among o r) (Completed o r) (t :: rest)) :=
    (meets_line hinner hs hq (Nat.lt_succ_self _)).bind fun s _ _ hs => .pure hs
  have hcomment (hs : q.statement l.pending t =
      q.goto (.between (.comment false) (l.pending.extend ⟨[Reader.comment t]⟩)))
      (hk : t.kind = .comment) :
      Meets last o (do
          let x ← description .none
          return Round.again { l with pending := l.pending.extend x.1 })
        (t :: rest) (GoesOn (Among o r) (Completed o r) (t :: rest)) := by
    have hrun : At o (q.moved (.between (.comment false)
        (l.pending.extend (Description.none.push (Reader.comment t))))) rest :=
      hq.take hs (by simp [hk])
    exact (meets_description_comment hk hrun).bind fun x _ _ hx => .pure ⟨hx.1, hx.2.at_none⟩
  have hskip (hs : q.statement l.pending t = q.goto (.between .none l.pending))
      (hk : t.kind ≠ .endOfInput) : Meets last o (do let _ ← next; return Round.again l)
        (t :: rest) (GoesOn (Among o r) (Completed o r) (t :: rest)) :=
    .next (.pure ⟨Nat.lt_succ_self _, hq.take hs hk⟩)
  refine .peek ?_
  unfold opened
  cases hg : r.groups with
  | nil =>
    cases hk : t.kind with
    | newline | endOfSource => exact hskip (by simp [Reader.statement, hk, q, hg]) (by simp [hk])
    | endOfInput =>
      obtain rfl := h.closed.tail_eq_nil hk
      have hlast : q.statement l.pending t = .ok (q.moved (.between .none l.pending)) := by
        simp [Reader.statement, hk, q, hg]
      exact .next (.pure ((completed_of_nil hg).mpr
        ⟨rfl, _, hq.run.symm.trans (Reader.run_cons [] hlast)⟩))
    | comment => exact hcomment (by simp [Reader.statement, hk, q]) hk
    | _ => exact hline (by simp [Reader.statement, hk, q, hg])
  | cons g groups =>
    cases hk : t.kind with
    | newline => exact hskip (by simp [Reader.statement, hk, q]) (by simp [hk])
    | endOfSource | endOfInput =>
      exact .next (.error (hq.reject (by simp [Reader.statement, hk, q, hg])))
    | comment => exact hcomment (by simp [Reader.statement, hk, q]) hk
    | rightBrace =>
      exact .pure ((completed_of_cons (by simp [hg])).mpr ⟨l.pending, h, by simp [hk]⟩)
    | _ => exact hline (by simp [Reader.statement, hk, q, hg])

end

/-- The induction is on the tokens, of which fewer are left for the lines of a group. -/
theorem meets_lines {l : Lines} (h : Among o r l ts) :
    Meets last o (lines (opened r) l) ts (Completed o r) := by
  induction hn : ts.length using Nat.strong_induction_on generalizing r l ts with
  | _ n ih =>
    refine .rounds (linesRound groupLines (opened r)) (fun l => by rw [Round.lines]; rfl)
      (fun _ => by rw [Round.lines])
      (fun l ts' hts' h => meets_linesRound (fun r lbrace rest hrest hr h => ?_) h) hn.le h
    rw [groupLines, ← hr]
    exact ih rest.length (hrest.trans_le hts') h rfl

end KnittingPattern.Descent
