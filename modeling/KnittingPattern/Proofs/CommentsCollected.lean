import KnittingPattern.Proofs.CommentsKept

/-! # Where comments end up

The comments at the top of the texts describe the whole pattern if a blank line follows them.  All
others go to the statements, as they are written, unless no statement follows where they stand; a
description has nothing besides such comments and the empty ones between their runs.  Main theorem:
`Pattern.collected_of_ofSources`. -/

namespace KnittingPattern

open Token (Kind)

namespace Token

/-- Lines of comments with a blank line behind them. -/
inductive TitleRun : List Token → Prop
  | last {c n blank : Token} (hc : c.kind = .comment) (hn : n.kind = .newline)
    (hb : blank.kind = .newline) : TitleRun [c, n, blank]
  | line {c n : Token} {ts : List Token} (hc : c.kind = .comment) (hn : n.kind = .newline)
    (h : TitleRun ts) : TitleRun (c :: n :: ts)

/-- The first token is a comment that begins such lines. -/
def Titled (ts : List Token) : Prop := ∃ run, TitleRun run ∧ run <+: ts

variable {ts title : List Token} {c n : Token}

theorem TitleRun.comments_ne_nil (h : TitleRun title) : comments title ≠ [] := by
  cases h with
  | last hc hn hb => simp [comments, hc]
  | line hc hn h => simp [comments, hc]

theorem titled_of_blank (hc : c.kind = .comment) (hn : n.kind = .newline) {t : Token}
    (ht : t.kind = .newline) : Titled (c :: n :: t :: ts) :=
  ⟨_, .last hc hn ht, List.prefix_append [c, n, t] ts⟩

theorem Titled.line (h : Titled ts) (hc : c.kind = .comment) (hn : n.kind = .newline) :
    Titled (c :: n :: ts) := by
  obtain ⟨run, hrun, hts⟩ := h
  exact ⟨_, .line hc hn hrun, List.prefix_append_right_inj [c, n] |>.mpr hts⟩

end Token

open Token

namespace Reader

/-- A reader before any statement, with the description of the next one so far. -/
def opening (title : Description) (run : Run) (d : Description) : Reader :=
  ⟨title, [], [], .between run d⟩

variable {ts us title : List Token} {r q : Reader} {c n t last : Token} {d d' : Description}
  {b : Bool}

theorem step_line_comment (hc : c.kind = .comment) : (opening .none (.line b) d).step c =
    .ok (opening .none (.comment b) (d.push (comment c))) := by
  simp [opening, step, between, hc, goto]

theorem step_comment_newline (hn : n.kind = .newline) :
    (opening .none (.comment b) d).step n = .ok (opening .none (.line b) d) := by
  simp [opening, step, between, hn, goto]

/-- Nothing but a line break behind a comment can make a title. -/
theorem step_comment_of_ne (hn : n.kind ≠ .newline) :
    (opening .none (.comment true) d).step n = (opening .none (.comment false) d).step n := by
  obtain ⟨kind, literal, position, source⟩ := n
  cases kind <;> first | rfl | exact absurd rfl hn

/-- Behind the line of a comment it takes a comment or a line break. -/
theorem step_line_of_ne (hc : n.kind ≠ .comment) (hn : n.kind ≠ .newline) :
    (opening .none (.line true) d).step n = (opening .none (.line false) d).step n := by
  obtain ⟨kind, literal, position, source⟩ := n
  cases kind <;> first | rfl | exact absurd rfl hc | exact absurd rfl hn

theorem step_start_comment (hc : c.kind = .comment) :
    start.step c = (opening .none (.line true) .none).step c := by
  rw [step_line_comment hc]
  simp only [start, step, between, hc]
  rfl

/-- A comment begins the description of a statement like one behind another line. -/
theorem step_none_comment (hc : c.kind = .comment) :
    (opening .none .none .none).step c = (opening .none (.line false) .none).step c := by
  rw [step_line_comment hc]
  simp only [opening, step, between, statement, hc]
  rfl

theorem step_start_of_ne (hc : n.kind ≠ .comment) :
    start.step n = (opening .none .none .none).step n := by
  obtain ⟨kind, literal, position, source⟩ := n
  cases kind <;> first | rfl | exact absurd rfl hc

theorem run_congr (h : r.step t = q.step t) (ts : List Token) :
    r.run (t :: ts) = q.run (t :: ts) := by
  simp only [run, List.foldlM_cons, h]

/-- The blank line behind a title ends it. -/
theorem run_titleRun (h : TitleRun title) (d : Description) (ts : List Token) :
    (opening .none (.line true) d).run (title ++ ts) =
      (opening ⟨d.comments ++ comments title⟩ .none .none).run ts := by
  induction h generalizing d with
  | @last c n blank hc hn hb =>
    have hblank (d : Description) :
        (opening .none (.line true) d).step blank = .ok (opening d .none .none) := by
      simp [opening, step, between, hb]
    have hcomments : comments [c, n, blank] = [comment c] := by simp [comments, hc, hn, hb]
    calc (opening .none (.line true) d).run (c :: n :: blank :: ts)
        = (opening .none (.comment true) (d.push (comment c))).run (n :: blank :: ts) :=
          run_cons _ (step_line_comment hc)
      _ = (opening .none (.line true) (d.push (comment c))).run (blank :: ts) :=
          run_cons _ (step_comment_newline hn)
      _ = (opening (d.push (comment c)) .none .none).run ts := run_cons _ (hblank _)
      _ = _ := by rw [hcomments]; rfl
  | @line c n title hc hn h ih =>
    have hcomments : comments (c :: n :: title) = comment c :: comments title := by
      simp [comments, hc, hn]
    calc (opening .none (.line true) d).run (c :: n :: (title ++ ts))
        = (opening .none (.comment true) (d.push (comment c))).run (n :: (title ++ ts)) :=
          run_cons _ (step_line_comment hc)
      _ = (opening .none (.line true) (d.push (comment c))).run (title ++ ts) :=
          run_cons _ (step_comment_newline hn)
      _ = _ := ih _
      _ = _ := by rw [hcomments, List.append_cons]; rfl

/-- A title is read as the description of the pattern. -/
theorem run_start_titled (h : TitleRun title) (ts : List Token) :
    start.run (title ++ ts) = (opening ⟨comments title⟩ .none .none).run ts := by
  have hrun : start.run (title ++ ts) = (opening .none (.line true) .none).run (title ++ ts) := by
    cases h with
    | last hc hn hb => exact run_congr (step_start_comment hc) _
    | line hc hn h => exact run_congr (step_start_comment hc) _
  exact hrun.trans (run_titleRun h .none ts)

/-- Lines of comments that no blank line follows are no title. -/
theorem run_line_untitled {ts : List Token} (ht : ¬Titled ts) (hl : last.kind = .endOfInput)
    (hhead : ∀ t ∈ ts.head?, t.kind ≠ .newline) (d : Description) :
    (opening .none (.line true) d).run (ts ++ [last]) =
      (opening .none (.line false) d).run (ts ++ [last]) := by
  match ts with
  | [] => exact run_congr (step_line_of_ne (by simp [hl]) (by simp [hl])) []
  | c :: ts =>
    by_cases hc : c.kind = .comment
    · rw [List.cons_append, run_cons _ (step_line_comment hc), run_cons _ (step_line_comment hc)]
      match ts with
      | [] => exact run_congr (step_comment_of_ne (by simp [hl])) []
      | n :: ts =>
        by_cases hn : n.kind = .newline
        · rw [List.cons_append, run_cons _ (step_comment_newline hn),
            run_cons _ (step_comment_newline hn)]
          refine run_line_untitled (fun h => ht (h.line hc hn)) hl (fun t hts hblank => ?_) _
          obtain ⟨ts, rfl⟩ := List.head?_eq_some_iff.mp hts
          exact ht (titled_of_blank hc hn hblank)
        · exact run_congr (step_comment_of_ne hn) _
    · exact run_congr (step_line_of_ne hc (hhead c rfl)) _

/-- Texts that do not begin with a title are read as statements from the first token on. -/
theorem run_start_untitled (ht : ¬Titled ts) (hl : last.kind = .endOfInput) :
    start.run (ts ++ [last]) = (opening .none .none .none).run (ts ++ [last]) := by
  cases ts with
  | nil => exact run_congr (step_start_of_ne (by simp [hl])) []
  | cons c ts =>
    by_cases hc : c.kind = .comment
    · have hhead : ∀ t ∈ (c :: ts).head?, t.kind ≠ .newline := by simp [hc]
      calc start.run (c :: ts ++ [last])
          = (opening .none (.line true) .none).run (c :: ts ++ [last]) :=
            run_congr (step_start_comment hc) _
        _ = (opening .none (.line false) .none).run (c :: ts ++ [last]) :=
            run_line_untitled ht hl hhead .none
        _ = (opening .none .none .none).run (c :: ts ++ [last]) :=
            (run_congr (step_none_comment hc) _).symm
    · exact run_congr (step_start_of_ne hc) _

/-- What has been read stays so with all tokens that follow. -/
theorem Collects.run {title : Description} (h : Collects title ts r)
    (hi : ∀ t ∈ us, t.kind ≠ .endOfInput)
    (hc : (ts ++ us).IsChain fun t u => t.kind = .comment → u.kind.endsLine)
    (hq : r.run us = .ok q) : Collects title (ts ++ us) q := by
  induction us generalizing ts r with
  | nil =>
    cases hq
    simpa using h
  | cons t us ih =>
    obtain ⟨p, hp, hq⟩ := exists_of_run_cons hq
    obtain ⟨ht, hi⟩ := List.forall_mem_cons.mp hi
    have halone : t.kind = .comment → ∀ u ∈ ts.getLast?, u.kind ≠ .comment := by
      intro hcomment u hu hu'
      have hends := (List.isChain_append.mp hc).2.2 u hu t rfl hu'
      rw [hcomment] at hends
      cases hends
    rw [List.append_cons] at hc ⊢
    exact ih (h.step ht halone hp) hi hc hq

/-- The tokens behind a title are told by the statements. -/
theorem told_of_run {title : Description} (hi : ∀ t ∈ ts, t.kind ≠ .endOfInput)
    (hc : ts.IsChain fun t u => t.kind = .comment → u.kind.endsLine)
    (hl : last.kind = .endOfInput)
    (hq : (opening title .none .none).run (ts ++ [last]) = .ok q) :
    q.title = title ∧ ∃ gap, Told ts q.statements gap := by
  have hstart : Collects title [] (opening title .none .none) :=
    .between rfl (.outside .start) rfl rfl .nil (by simp)
  obtain ⟨r, hr, hq⟩ := exists_of_run_append hq
  obtain ⟨q', hq', hrun⟩ := exists_of_run_cons hq
  cases hrun
  exact (hstart.run hi hc hr).told hl hq'

end Reader

/-- How the comments among the tokens of texts are spread over a pattern: those of the title
describe the pattern, those of the other tokens its statements. -/
structure Block.Collected (title rest : List Token) (b : Block) : Prop where
  title_or_none : title = [] ∨ TitleRun title
  titled : b.desc.comments ≠ [] ↔ Titled (title ++ rest)
  desc : b.desc.comments = comments title
  /-- Which comments describe which statement. -/
  told : ∃ gap, Told rest b.statements gap
  /-- Each comment that is not left out is one entry of one description, and no other entry has a
  text. -/
  spread : (written b.entries).Perm (comments title ++ (kept true true rest).map Reader.comment)
  /-- Entries without a text stand between the runs of comments before a statement. -/
  described : ∀ s ∈ Stmt.withinAll b.statements, Described rest s
  texts : ∀ t ∈ title ++ rest, t.kind = .comment → t.literal ≠ ""

namespace Pattern

/-- Whether or not the texts begin with a title, what is behind it is read as statements. -/
theorem exists_title {ts : List Token} {last : Token} {q : Reader} (hl : last.kind = .endOfInput)
    (h : Reader.start.run (ts ++ [last]) = .ok q) : ∃ title rest, ts = title ++ rest ∧
      (TitleRun title ∨ title = [] ∧ ¬Titled ts) ∧
      (Reader.opening ⟨comments title⟩ .none .none).run (rest ++ [last]) = .ok q := by
  by_cases ht : Titled ts
  · obtain ⟨title, htitle, rest, rfl⟩ := ht
    rw [List.append_assoc, Reader.run_start_titled htitle] at h
    exact ⟨title, rest, rfl, .inl htitle, h⟩
  · rw [Reader.run_start_untitled ht hl] at h
    exact ⟨[], ts, rfl, .inr ⟨rfl, ht⟩, h⟩

/-- Each comment of the texts is an entry of one description, unless no statement follows it where
it stands. -/
theorem collected_of_ofSources {texts : List String} {b : Block} (h : ofSources texts = .ok b) :
    ∃ title rest, (TokenStream.ofSources texts).tokens = title ++ rest ∧
      b.Collected title rest := by
  have hlines := areLines_of_ofSources h
  obtain ⟨hi, hl⟩ := TokenStream.ended_ofSources texts
  have hchain := TokenStream.isChain_ofSources texts
  have hlit : ∀ t ∈ (TokenStream.ofSources texts).tokens, t.kind = .comment → t.literal ≠ "" :=
    fun t => TokenStream.literal_ne_of_comment
  obtain ⟨q, hq, rfl⟩ := exists_of_read_ok h
  obtain ⟨title, rest, hts, htitle, hrun⟩ := exists_title hl hq
  rw [hts] at hi hchain hlit htitle
  obtain ⟨hlt, hlr⟩ := List.forall_mem_append.mp hlit
  obtain ⟨hdesc, gap, htold⟩ := Reader.told_of_run (List.forall_mem_append.mp hi).2
    (List.isChain_append.mp hchain).2.1 hl hrun
  have hcomments : q.title.comments = comments title := by rw [hdesc]
  have hspread : (written (Stmt.entries q.statements)).Perm
      ((kept true true rest).map Reader.comment) := by
    simpa using htold.perm hlines hlr true
  refine ⟨title, rest, hts, ?_, ?_, hcomments, ⟨gap, htold⟩, ?_, htold.described hlines, hlit⟩
  · exact htitle.elim .inr fun h => .inl h.1
  · change q.title.comments ≠ [] ↔ _
    rw [hcomments]
    obtain ht | ⟨rfl, ht⟩ := htitle
    · exact iff_of_true ht.comments_ne_nil ⟨title, ht, List.prefix_append title rest⟩
    · exact iff_of_false (fun h => h rfl) ht
  · rw [Block.entries, written_append, hcomments, written_comments hlt]
    exact hspread.append_left _

/-- A title, two runs of comments before a stitch and one behind it, and two comments that no
statement follows. -/
def scarf : Block :=
  ⟨[.row [.stitch ⟨3, 1⟩ ⟨⟨3, 1⟩, "k"⟩ []] []
      ⟨[⟨⟨3, 1⟩, "; Rib"⟩, ⟨⟨1, 1⟩, ""⟩, ⟨⟨1, 1⟩, "; wide"⟩, ⟨⟨3, 3⟩, "; knit"⟩]⟩,
    .group ⟨4, 1⟩ ⟨6, 1⟩ [] [] .none], ⟨1, 1⟩, ⟨7, 5⟩, ⟨[⟨⟨1, 1⟩, "; Scarf"⟩]⟩⟩

theorem collected_of_ofSources_scarf :
    ofSources ["; Scarf\n\n; Rib\n",
      "; wide\n\nk ; knit\n\x7b\n; lost\n\x7d\n; end"] = .ok scarf ∧
    ∃ title rest, (TokenStream.ofSources ["; Scarf\n\n; Rib\n",
      "; wide\n\nk ; knit\n\x7b\n; lost\n\x7d\n; end"]).tokens = title ++ rest ∧
      scarf.Collected title rest := by
  have h : ofSources ["; Scarf\n\n; Rib\n",
    "; wide\n\nk ; knit\n\x7b\n; lost\n\x7d\n; end"] = .ok scarf := rfl
  exact ⟨h, collected_of_ofSources h⟩

end Pattern
end KnittingPattern
