import KnittingPattern.Proofs.LexemeCuts
import KnittingPattern.Proofs.LineReading

/-! # Tokens that are read alike

A reader takes no notice of where a token stands, nor of how a line break is written.  How far it is
between statements can be seen by the classes of the tokens before.  Main theorems:
`Reader.exists_step_of_same`, `Reader.fits_step`. -/

namespace KnittingPattern

open Token (Kind)

/-- Pieces of one class that are written alike; line breaks may be written in any way. -/
structure Lexeme.Same (l m : Lexeme) : Prop where
  kind : m.kind = l.kind
  text : l.kind ≠ .newline → m.text = l.text

theorem Lexeme.Same.rfl {l : Lexeme} : l.Same l := ⟨Eq.refl _, fun _ => Eq.refl _⟩

theorem Lexeme.Same.symm {l m : Lexeme} (h : l.Same m) : m.Same l :=
  ⟨h.kind.symm, fun hm => (h.text (h.kind ▸ hm)).symm⟩

theorem Place.ended?_plain (p : Place) : p.plain.ended? = p.ended?.map Stmt.plain := by
  have hbraces (l : RowLine) : l.plain.braces.isEmpty = l.braces.isEmpty := by
    simp [RowLine.plain]
  cases p with
  | word d id =>
    refine congrArg some ((Reader.plain_rowStmt _).trans ?_).symm
    exact congrArg (fun e => Reader.rowStmt ⟨.statement, .none, [], [e]⟩) (Expr.plain_stitch ..)
  | elements l =>
    simp only [plain, ended?, hbraces]
    split
    · exact congrArg some (Reader.plain_rowStmt l).symm
    · rfl
  | stitch l id =>
    simp only [plain, ended?, hbraces, apply_ite (Option.map Stmt.plain)]
    split
    · refine congrArg some ?_
      rw [Reader.plain_rowStmt, RowLine.plain_push, Expr.plain_stitch]
      rfl
    · rfl
  | closed l es =>
    simp only [plain, ended?, hbraces, apply_ite (Option.map Stmt.plain)]
    split
    · refine congrArg some ?_
      rw [Reader.plain_rowStmt, RowLine.plain_push, Expr.plain_row]
      rfl
    · rfl
  | groupClosed g rbrace lines =>
    exact congrArg some (Reader.plain_groupStmt g rbrace [] lines).symm
  | _ => rfl

namespace Reader

variable {r r' q : Reader} {c t t' : Token}

/-- How a line break is written does not matter. -/
theorem step_newline (ht : t.kind = .newline) (ht' : t'.kind = .newline) (hq : r.step t = .ok q) :
    r.step t' = .ok q := by
  obtain ⟨title, groups, ss, place⟩ := r
  obtain ⟨kind, literal, position, source⟩ := t
  obtain ⟨kind', literal', position', source'⟩ := t'
  obtain rfl : kind = .newline := ht
  obtain rfl : kind' = .newline := ht'
  cases place with
  | between run d =>
    cases run with
    | line title => cases title <;> exact hq
    | _ => exact hq
  | elements l | stitch l _ | closed l _ =>
    obtain ⟨role, desc, braces, es⟩ := l
    cases braces with
    | nil => exact hq
    | cons b braces => cases hq
  | args owner as place => cases place <;> cases hq
  | target _ _ | body _ _ => cases hq
  | _ => exact hq

theorem step_ended_comment {s : Stmt} (h : r.place.ended? = some s) (hc : c.kind = .comment) :
    r.step c = .ok { r with place := .commented (s.withDesc (s.desc.push (comment c))) } := by
  obtain ⟨kind, literal, position, source⟩ := c
  obtain rfl : kind = .comment := hc
  obtain ⟨title, groups, ss, place⟩ := r
  cases place with
  | word _ _ | groupClosed _ _ _ | lineEnd _ =>
    cases h
    rfl
  | elements line | stitch line _ | closed line _ =>
    obtain ⟨role, desc, braces, es⟩ := line
    cases braces with
    | nil =>
      cases h
      rfl
    | cons b braces => cases h
  | _ => cases h

theorem exists_step_of_between {run : Run} {d : Description} (h : r.place = .between run d)
    (hc : c.kind = .comment) :
    ∃ run' d', r.step c = .ok { r with place := .between run' d' } := by
  obtain ⟨kind, literal, position, source⟩ := c
  obtain rfl : kind = .comment := hc
  obtain ⟨title, groups, ss, place⟩ := r
  obtain rfl : place = .between run d := h
  cases run <;> exact ⟨_, _, rfl⟩

/-- Readers that differ in positions and descriptions only go on alike. -/
theorem exists_step_of_same (hr : r'.plain = r.plain) (ht : t.lexeme.Same t'.lexeme)
    (hq : r.step t = .ok q) : ∃ q', r'.step t' = .ok q' ∧ q'.plain = q.plain := by
  have hplace : r'.place.plain = r.place.plain := congrArg Reader.place hr
  have hkind : t'.kind = t.kind := ht.kind
  by_cases hc : t.kind = .comment
  · have hc' : t'.kind = .comment := hkind.trans hc
    obtain ⟨run, desc, run', desc', hbetween, rfl⟩ | ⟨s, hs, rfl⟩ := step_comment hc hq
    · obtain ⟨run', desc', hbetween'⟩ : ∃ run' desc', r'.place = .between run' desc' := by
        rw [hbetween] at hplace
        cases hp : r'.place with
        | between run' desc' => exact ⟨_, _, rfl⟩
        | _ => rw [hp] at hplace; cases hplace
      obtain ⟨run'', desc'', hq'⟩ := exists_step_of_between hbetween' hc'
      refine ⟨_, hq', ?_⟩
      simp only [plain, Reader.mk.injEq] at hr ⊢
      exact ⟨trivial, hr.2.1, hr.2.2.1, rfl⟩
    · have hended := Place.ended?_plain r'.place
      rw [hplace, Place.ended?_plain, hs] at hended
      obtain ⟨s', hs', hplain⟩ := Option.map_eq_some_iff.mp hended.symm
      refine ⟨_, step_ended_comment hs' hc', ?_⟩
      simp only [plain, Reader.mk.injEq, Place.plain, Place.commented.injEq,
        Stmt.plain_withDesc] at hr ⊢
      exact ⟨trivial, hr.2.1, hr.2.2.1, hplain⟩
  · by_cases hn : t.kind = .newline
    · have hq : r.step { t with literal := t'.literal } = .ok q := step_newline hn hn hq
      refine exists_step_of_plain hr ?_ (t := { t with literal := t'.literal }) hc hq
      simp [Token.plain, hkind]
    · have hliteral : t'.literal = t.literal := ht.text hn
      exact exists_step_of_plain hr (by simp [Token.plain, hkind, hliteral]) hc hq

end Reader

/-- What stands before a token, as far as it matters between statements. -/
inductive Spot where
  /-- Nothing. -/
  | start
  /-- Tokens of the line of a statement. -/
  | line
  /-- The end of a line, and behind the last statement no comment. -/
  | blank
  /-- Comments behind the last statement. -/
  | told
deriving DecidableEq

namespace Spot

/-- The spot behind one more token. -/
def next : Spot → Kind → Spot
  | line, k => if k.endsLine then blank else line
  | told, k => if k.endsLine || k == .comment then told else line
  | _, k => if k.endsLine then blank else if k = .comment then told else line

/-- The spot behind some tokens of these classes. -/
def behind (s : Spot) (ls : List Lexeme) : Spot := ls.foldl (fun s l => s.next l.kind) s

/-- A reader at this spot is there. -/
def Fits : Spot → Place → Prop
  | start, p => p = .between .start .none
  | line, p => (∃ d, p.Carries True (fun _ => True) d) ∨ ∃ s, p = .commented s
  | blank, p => p = .between .none .none
  | told, p => ∃ run d, p = .between run d

variable {s : Spot} {p : Place}

theorem Fits.between (h : s.Fits p) (hs : s ≠ line) : ∃ run d, p = .between run d := by
  cases s with
  | start => exact ⟨_, _, h⟩
  | line => exact absurd rfl hs
  | blank => exact ⟨_, _, h⟩
  | told => exact h

end Spot

namespace Reader

variable {r q : Reader} {t : Token} {s : Spot}

/-- A token that begins or closes a statement leads into a line. -/
theorem fits_statement {d : Description} (ht : t.kind.isInLine) (hq : r.statement d t = .ok q) :
    Spot.line.Fits q.place := by
  unfold statement at hq
  split at hq
  case h_6 hk | h_1 hk | h_2 hk _ | h_3 hk _ =>
    rw [hk] at ht
    cases ht
  case h_7 | h_8 | h_9 =>
    cases hq
    exact .inl ⟨_, rfl, trivial⟩
  all_goals cases hq

theorem fits_between {run : Run} {d : Description} (hp : r.place = .between run d)
    (hs : s.Fits r.place) (hline : s ≠ .line) (hq : r.step t = .ok q) :
    (s.next t.kind).Fits q.place := by
  have hbetween : r.between run d t = .ok q := by rwa [step, hp] at hq
  by_cases ht : t.kind.isInLine
  · obtain ⟨hk, hc, hn, -⟩ := Kind.of_isInLine ht
    have hnext : s.next t.kind = .line := by
      rw [Bool.or_eq_false_iff] at hk
      cases s <;> simp [Spot.next, hk, hc]
    rw [hnext]
    exact fits_statement ht ((between_eq_statement r run d hn hc).symm.trans hbetween)
  · obtain ⟨title, groups, ss, place⟩ := r
    obtain ⟨kind, literal, position, source⟩ := t
    obtain rfl : place = .between run d := hp
    cases kind with
    | comment =>
      obtain ⟨run', d', hq'⟩ := exists_step_of_between (c := ⟨.comment, literal, position, source⟩)
        (r := ⟨title, groups, ss, .between run d⟩) rfl rfl
      obtain rfl : _ = q := Except.ok.inj (hq'.symm.trans hq)
      cases s <;> first | exact ⟨_, _, rfl⟩ | exact absurd rfl hline
    | newline =>
      cases s with
      | line => exact absurd rfl hline
      | start | blank =>
        cases hs
        cases hq
        rfl
      | told =>
        cases run with
        | line b => cases b <;> cases hq <;> exact ⟨_, _, rfl⟩
        | _ => cases hq; exact ⟨_, _, rfl⟩
    | endOfSource | endOfInput =>
      have hstatement := (between_eq_statement _ run d (by simp) (by simp)).symm.trans hbetween
      cases groups with
      | cons g groups => cases hstatement
      | nil =>
        cases hstatement
        cases s with
        | line => exact absurd rfl hline
        | start | blank => cases hs; rfl
        | told => exact ⟨_, _, rfl⟩
    | _ => exact absurd rfl ht

/-- The end of a line leads between statements. -/
theorem fits_ending {st : Stmt} (hq : r.ending st t = .ok q) : q.place = .between .none .none := by
  obtain ⟨title, groups, ss, place⟩ := r
  obtain ⟨kind, literal, position, source⟩ := t
  cases kind with
  | newline => cases hq; rfl
  | endOfSource | endOfInput =>
    cases groups with
    | nil => cases hq; rfl
    | cons g groups => cases hq
  | _ => cases hq

theorem fits_line (h : Spot.line.Fits r.place) (hq : r.step t = .ok q) :
    (Spot.line.next t.kind).Fits q.place := by
  by_cases ht : t.kind.endsLine
  · have hnext : Spot.line.next t.kind = .blank := if_pos ht
    rw [hnext]
    obtain ⟨d, hd⟩ | ⟨st, hst⟩ := h
    · obtain ⟨role, lbrace, -, -, -, rfl⟩ | ⟨st, -, hending⟩ := ended_of_step hd ht hq
      · rfl
      · exact fits_ending hending
    · rw [step, hst] at hq
      exact fits_ending hq
  · have hnext : Spot.line.next t.kind = .line := if_neg ht
    rw [hnext]
    obtain ⟨d, hd⟩ | ⟨st, hst⟩ := h
    · by_cases hc : t.kind = .comment
      · obtain ⟨run, desc, -, -, hplace, -⟩ | ⟨st, -, rfl⟩ := step_comment hc hq
        · rw [hplace] at hd
          cases hd
        · exact .inr ⟨_, rfl⟩
      · have hline : t.kind.isInLine := by simp [Kind.isInLine, ht, hc]
        obtain ⟨p, hp, rfl⟩ := moves_step (fun _ => trivial) hd hline q hq
        exact .inl ⟨d, hp⟩
    · rw [step, hst] at hq
      exact absurd (endsLine_of_ending hq) ht

theorem fits_start : Spot.start.Fits Reader.start.place := rfl

/-- A reader stays at the spot that the tokens lead to. -/
theorem fits_step (h : s.Fits r.place) (hq : r.step t = .ok q) :
    (s.next t.kind).Fits q.place := by
  by_cases hs : s = .line
  · subst hs
    exact fits_line h hq
  · obtain ⟨run, d, hp⟩ := h.between hs
    exact fits_between hp h hs hq

end Reader
end KnittingPattern
