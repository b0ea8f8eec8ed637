import KnittingPattern.Proofs.CommentsTold

/-! # Comments as they are read

A reader keeps the comments since the last statement as the description of the next one, with every
token that it takes.  Main theorems: `Reader.Collects.step`, `Reader.Collects.told`. -/

namespace KnittingPattern

open Token

namespace Token

/-- How far the run of comments goes behind some tokens, if none of them can be a title. -/
inductive RunsTo : List Token → Run → Prop
  | nil : RunsTo [] .none
  | comment {gap : List Token} {run : Run} {c : Token} (h : RunsTo gap run)
    (hc : c.kind = .comment) : RunsTo (gap ++ [c]) (.comment false)
  | line {gap : List Token} {n : Token} (h : RunsTo gap (.comment false))
    (hn : n.kind = .newline) : RunsTo (gap ++ [n]) (.line false)
  | other {gap : List Token} {run : Run} {t : Token} (h : RunsTo gap run)
    (hc : t.kind ≠ .comment) (ht : run = .comment false → t.kind ≠ .newline) :
    RunsTo (gap ++ [t]) .none

variable {gap : List Token} {run : Run} {t : Token}

theorem RunsTo.of_comment {c : Token} (h : RunsTo (gap ++ [c]) run) (hc : c.kind = .comment) :
    run = .comment false := by
  generalize hg : gap ++ [c] = all at h
  cases h with
  | nil => simp at hg
  | comment h hc => rfl
  | line h hn =>
    obtain ⟨-, rfl⟩ := List.append_singleton_inj.mp hg
    rw [hc] at hn
    cases hn
  | other h hc' =>
    obtain ⟨-, rfl⟩ := List.append_singleton_inj.mp hg
    exact absurd hc hc'

theorem RunsTo.pauses_iff (h : RunsTo gap run) : Pauses gap ↔ run = .line false := by
  have hlast {ts pre : List Token} {t c n : Token} (h : ts ++ [t] = pre ++ [c, n]) :
      ts = pre ++ [c] ∧ t = n := by
    exact List.append_singleton_inj.mp (h.trans (List.append_assoc pre [c] [n]).symm)
  cases h with
  | nil =>
    refine ⟨fun ⟨pre, c, n, h, _⟩ => ?_, fun h => by cases h⟩
    simp at h
  | comment h hc =>
    refine ⟨fun ⟨pre, c, n, h, _, hn⟩ => ?_, fun h => by cases h⟩
    obtain ⟨-, rfl⟩ := hlast h
    rw [hc] at hn
    cases hn
  | line h hn =>
    refine ⟨fun _ => rfl, fun _ => ?_⟩
    cases h with
    | comment h hc => exact ⟨_, _, _, List.append_assoc _ [_] [_], hc, hn⟩
  | other h hc ht =>
    refine ⟨fun ⟨pre, c, n, hg, hc, hn⟩ => ?_, fun h => by cases h⟩
    obtain ⟨rfl, rfl⟩ := hlast hg
    exact absurd hn (ht (h.of_comment hc))

end Token

namespace Reader

/-- What a reader has read behind the title: the statements with their descriptions, and the
description of the next one so far. -/
inductive Collects (title : Description) : List Token → Reader → Prop
  | between {ts gap : List Token} {r : Reader} {run : Run} {d : Description}
    (htitle : r.title = title) (h : Stands ts r.groups r.statements gap)
    (hp : r.place = .between run d) (hd : d.comments = lead gap) (hr : RunsTo gap run)
    (hl : ∀ t ∈ ts.getLast?, t.kind.isGap) : Collects title ts r
  | line {ts gap line : List Token} {r : Reader} {d : Description} (htitle : r.title = title)
    (h : Stands ts r.groups r.statements gap) (hd : d.comments = lead gap)
    (hp : r.place.Carries (Begins line) (Line line) d) : Collects title (ts ++ line) r
  | commented {ts gap line : List Token} {r : Reader} {s : Stmt} {c : Token}
    (htitle : r.title = title) (h : Stands ts r.groups r.statements gap) (hl : Line line s.lines)
    (hc : c.kind = .comment) (hp : r.place = .commented s)
    (hd : s.desc.comments = lead gap ++ [comment c]) : Collects title (ts ++ (line ++ [c])) r

variable {r q : Reader} {ts gap line : List Token} {t : Token} {title d : Description} {s : Stmt}

/-- A token between lines goes to the description of the next statement. -/
theorem Collects.ofGap {run : Run} {d : Description} {r : Reader} (htitle : r.title = title)
    (h : Stands (ts ++ [t]) r.groups r.statements (gap ++ [t])) (hp : r.place = .between run d)
    (hd : d.comments = lead (gap ++ [t])) (hr : RunsTo (gap ++ [t]) run) (ht : t.kind.isGap) :
    Collects title (ts ++ [t]) r := by
  refine .between htitle h hp hd hr fun u hu => ?_
  rw [List.getLast?_concat] at hu
  cases hu
  exact ht

theorem words_singleton {first : Kind → Prop} (h : first t.kind) (ht : t.kind.isInLine) :
    Words first [t] :=
  ⟨⟨t, rfl, h⟩, by simpa using ht⟩

/-- Behind the brace that closes a group stands the line of that group. -/
theorem collects_groupClosed {g : OpenGroup} {groups : List OpenGroup} {ss : List Stmt}
    (h : Stands ts (g :: groups) ss gap) (ht : t.kind = .rightBrace) {rbrace : Position} :
    Collects title (ts ++ [t]) ⟨title, groups, g.before, .groupClosed g rbrace ss⟩ := by
  cases h with
  | @inside ts head body _ _ n _ _ _ h hw hn hd hb =>
    have hclose : Closes [t] := words_singleton ht (by rw [ht]; rfl)
    have hread := Collects.line (r := ⟨title, groups, g.before, .groupClosed g rbrace ss⟩) rfl h hd
      ⟨rfl, Line.group hw hn hb hclose⟩
    simpa using hread

/-- A token between statements with which no run of comments goes on. -/
theorem collects_statement (htitle : r.title = title) (h : Stands ts r.groups r.statements gap)
    (hi : t.kind ≠ .endOfInput) (hc : t.kind ≠ .comment) (hd : d.comments = lead gap) {run : Run}
    (hr : RunsTo gap run) (hrun : run = .comment false → t.kind ≠ .newline)
    (hq : r.statement d t = .ok q) : Collects title (ts ++ [t]) q := by
  have hgap (ht : t.kind.isGap) {p : Place} (hp : p = .between .none d) :
      Collects title (ts ++ [t]) { r with place := p } :=
    .ofGap htitle (h.token ht fun h => absurd h hc) hp
      (hd.trans (lead_concat_of_not_comment hc).symm) (hr.other hc hrun) ht
  have hbegins (ht : t.kind = .identifier ∨ t.kind = .leftBrace) : Begins [t] :=
    words_singleton ht (by rcases ht with ht | ht <;> rw [ht] <;> rfl)
  obtain ⟨_, groups, ss, place⟩ := r
  obtain rfl : _ = title := htitle
  unfold statement at hq
  split at hq
  case h_1 hk => cases hq; exact hgap (by rw [hk]; rfl) rfl
  case h_2 hk _ => cases hq; exact hgap (by rw [hk]; rfl) rfl
  case h_3 hk _ => exact absurd hk hi
  case h_4 => cases hq
  case h_5 => cases hq
  case h_6 hk => exact absurd hk hc
  case h_7 g groups hk hg =>
    cases hq
    obtain rfl : _ = g :: groups := hg
    exact collects_groupClosed h hk
  case h_8 hk => cases hq; exact .line rfl h hd ⟨rfl, hbegins (.inl hk)⟩
  case h_9 hk => cases hq; exact .line rfl h hd ⟨rfl, hbegins (.inr hk)⟩
  case h_10 => cases hq

/-- A comment between statements. -/
theorem collects_comment (htitle : r.title = title) (h : Stands ts r.groups r.statements gap)
    (ht : t.kind = .comment) (halone : LineStarts ts) (hd : d.comments = lead gap) {run : Run}
    (hr : RunsTo gap run) (hq : r.between run d t = .ok q) : Collects title (ts ++ [t]) q := by
  have hstands := h.token (t := t) (by rw [ht]; rfl) fun _ => halone
  have hgap : t.kind.isGap := by rw [ht]; rfl
  by_cases hline : run = .line false
  · subst hline
    have hcomments : (d.push (comment t)).comments = lead (gap ++ [t]) := by
      rw [lead_concat_of_pauses (hr.pauses_iff.mpr rfl) ht, ← hd]
      rfl
    simp only [between, ht, goto] at hq
    cases hq
    exact .ofGap htitle hstands rfl hcomments (hr.comment ht) hgap
  · have hcomments : (d.extend ⟨[comment t]⟩).comments = lead (gap ++ [t]) := by
      rw [lead_concat_of_not_pauses (fun h => hline (hr.pauses_iff.mp h)) ht, ← hd]
    have hstatement : r.between run d t = r.statement d t := by
      unfold between
      cases hr with
      | line => exact absurd rfl hline
      | _ => simp only [ht]
    rw [hstatement] at hq
    simp only [statement, ht, goto] at hq
    cases hq
    exact .ofGap htitle hstands rfl hcomments (hr.comment ht) hgap

theorem collects_between (htitle : r.title = title) (h : Stands ts r.groups r.statements gap)
    (hi : t.kind ≠ .endOfInput) (halone : t.kind = .comment → LineStarts ts)
    (hd : d.comments = lead gap) {run : Run} (hr : RunsTo gap run)
    (hq : r.between run d t = .ok q) : Collects title (ts ++ [t]) q := by
  by_cases hc : t.kind = .comment
  · exact collects_comment htitle h hc (halone hc) hd hr hq
  · by_cases hn : run = .comment false ∧ t.kind = .newline
    · obtain ⟨rfl, hn⟩ := hn
      simp only [between, hn, goto] at hq
      cases hq
      have hgap : t.kind.isGap := by rw [hn]; rfl
      exact .ofGap htitle (h.token hgap fun h => absurd h hc) rfl
        (hd.trans (lead_concat_of_not_comment hc).symm) (hr.line hn) hgap
    · have hstatement : r.between run d t = r.statement d t := by
        obtain ⟨kind, literal, position, source⟩ := t
        cases hr <;> cases kind <;> first | rfl | exact absurd rfl hc | exact absurd ⟨rfl, rfl⟩ hn
      rw [hstatement] at hq
      exact collects_statement htitle h hi hc hd hr (fun h h' => hn ⟨h, h'⟩) hq

/-- The end of a line adds its statement. -/
theorem collects_ending (htitle : r.title = title)
    (h : Stands ts r.groups (r.statements ++ [s]) []) (hi : t.kind ≠ .endOfInput)
    (hq : r.ending s t = .ok q) : Collects title (ts ++ [t]) q := by
  have hends := endsLine_of_ending hq
  have hc : t.kind ≠ .comment := by
    intro hc
    rw [hc] at hends
    cases hends
  have hfinish : r.ending s t = (r.finish s).statement .none t := by
    obtain ⟨kind, literal, position, source⟩ := t
    cases kind <;> first | rfl | cases hends
  rw [hfinish] at hq
  have hstands : Stands ts (r.finish s).groups (r.finish s).statements [] := h
  exact collects_statement (r := r.finish s) htitle hstands hi hc rfl .nil (fun h => by cases h) hq

/-- A statement without a comment behind it. -/
theorem stands_ended {groups : List OpenGroup} {ss : List Stmt} (h : Stands ts groups ss gap)
    (hl : Line line s.lines) (hd : s.desc.comments = lead gap) :
    Stands (ts ++ line) groups (ss ++ [s]) [] := by
  simpa using h.statement none hl (by simp) (by simpa using hd)

/-- A statement with a comment behind it. -/
theorem stands_commented {groups : List OpenGroup} {ss : List Stmt} {c : Token}
    (h : Stands ts groups ss gap) (hl : Line line s.lines) (hc : c.kind = .comment)
    (hd : s.desc.comments = lead gap ++ [comment c]) :
    Stands (ts ++ (line ++ [c])) groups (ss ++ [s]) [] :=
  h.statement (some c) hl (by simpa using hc) hd

/-- A comment within a line ends its statement, but for the line break. -/
theorem collects_commented (htitle : r.title = title) (h : Stands ts r.groups r.statements gap)
    (hd : d.comments = lead gap) (hp : r.place.Carries (Begins line) (Line line) d)
    (ht : t.kind = .comment) (hq : r.step t = .ok q) : Collects title (ts ++ line ++ [t]) q := by
  obtain ⟨run, desc, run', desc', hplace, -⟩ | ⟨s, hs, rfl⟩ := step_comment ht hq
  · rw [hplace] at hp
    cases hp
  · obtain ⟨rfl, hl⟩ := carries_ended .words hp hs
    rw [List.append_assoc]
    refine .commented htitle h (s := s.withDesc (s.desc.push (comment t))) ?_ ht rfl ?_
    · rwa [Stmt.lines_withDesc]
    · rw [Stmt.desc_withDesc, ← hd]
      rfl

/-- The end of a line begins the body of a group or ends a statement. -/
theorem collects_lineEnd (htitle : r.title = title) (h : Stands ts r.groups r.statements gap)
    (hd : d.comments = lead gap) (hp : r.place.Carries (Begins line) (Line line) d)
    (hi : t.kind ≠ .endOfInput) (ht : t.kind.endsLine) (hq : r.step t = .ok q) :
    Collects title (ts ++ line ++ [t]) q := by
  obtain ⟨role, lbrace, hw, hn, -, rfl⟩ | ⟨s, hs, hending⟩ := ended_of_step hp ht hq
  · have hstands := Stands.inside (g := ⟨role, d, lbrace, r.statements⟩) h hw hn hd .start
    rw [List.append_assoc]
    refine .between htitle hstands rfl rfl .nil fun u hu => ?_
    rw [← List.append_assoc, List.getLast?_concat] at hu
    cases hu
    rw [hn]
    rfl
  · obtain ⟨rfl, hl⟩ := carries_ended .words hp hs
    exact collects_ending htitle (stands_ended h hl hd) hi hending

/-- What has been read stays so with one token more; no comment follows another one directly. -/
theorem Collects.step (h : Collects title ts r) (hi : t.kind ≠ .endOfInput)
    (hc : t.kind = .comment → ∀ u ∈ ts.getLast?, u.kind ≠ .comment) (hq : r.step t = .ok q) :
    Collects title (ts ++ [t]) q := by
  cases h with
  | between htitle h hp hd hr hl =>
    have halone (ht : t.kind = .comment) : LineStarts ts := by
      intro u hu
      have hgap := hl u hu
      have hnot := hc ht u hu
      revert hgap hnot
      cases u.kind <;> decide
    rw [Reader.step, hp] at hq
    exact collects_between htitle h hi halone hd hr hq
  | line htitle h hd hp =>
    by_cases ht : t.kind.isInLine
    · obtain ⟨p, hp, rfl⟩ := moves_step .words hp ht q hq
      rw [List.append_assoc]
      exact .line htitle h hd (hp.mono (·.concat ht) fun _ hl => hl.concat ht)
    · by_cases hcomment : t.kind = .comment
      · exact collects_commented htitle h hd hp hcomment hq
      · have hends : t.kind.endsLine := by
          revert ht hcomment
          cases t.kind <;> decide
        exact collects_lineEnd htitle h hd hp hi hends hq
  | commented htitle h hl hcomment hp hd =>
    rw [Reader.step, hp] at hq
    exact collects_ending htitle (stands_commented h hl hcomment hd) hi hq

theorem told_of_statement (h : Stands ts r.groups r.statements gap) (ht : t.kind = .endOfInput)
    (hq : r.statement d t = .ok q) : q.title = r.title ∧ Told ts q.statements gap := by
  obtain ⟨title, groups, ss, place⟩ := r
  cases h with
  | outside h =>
    simp only [statement, ht, goto] at hq
    cases hq
    exact ⟨rfl, h⟩
  | inside =>
    simp only [statement, ht] at hq
    cases hq

theorem told_of_ending (h : Stands ts r.groups (r.statements ++ [s]) []) (ht : t.kind = .endOfInput)
    (hq : r.ending s t = .ok q) : q.title = r.title ∧ Told ts q.statements [] := by
  rw [ending, if_neg (by simp [ht]), if_pos (by rw [ht]; rfl)] at hq
  exact told_of_statement (r := r.finish s) h ht hq

/-- The end of input ends what has been read. -/
theorem Collects.told (h : Collects title ts r) (ht : t.kind = .endOfInput)
    (hq : r.step t = .ok q) : q.title = title ∧ ∃ gap, Told ts q.statements gap := by
  have hc : t.kind ≠ .comment := by simp [ht]
  have hn : t.kind ≠ .newline := by simp [ht]
  cases h with
  | between htitle h hp hd hr hl =>
    rw [Reader.step, hp] at hq
    obtain ⟨hq', htold⟩ :=
      told_of_statement h ht ((between_eq_statement r _ _ hn hc).symm.trans hq)
    exact ⟨hq'.trans htitle, _, htold⟩
  | line htitle h hd hp =>
    obtain ⟨role, lbrace, -, hn', -, -⟩ | ⟨s, hs, hending⟩ := ended_of_step hp (by rw [ht]; rfl) hq
    · exact absurd hn' hn
    · obtain ⟨rfl, hl⟩ := carries_ended .words hp hs
      obtain ⟨hq', htold⟩ := told_of_ending (stands_ended h hl hd) ht hending
      exact ⟨hq'.trans htitle, _, htold⟩
  | commented htitle h hl hcomment hp hd =>
    rw [Reader.step, hp] at hq
    obtain ⟨hq', htold⟩ := told_of_ending (stands_commented h hl hcomment hd) ht hq
    exact ⟨hq'.trans htitle, _, htold⟩

end Reader
end KnittingPattern
