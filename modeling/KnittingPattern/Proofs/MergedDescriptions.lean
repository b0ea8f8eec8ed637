import KnittingPattern.Proofs.CommentsCollected
import KnittingPattern.Proofs.DescriptionLines

/-! # The lines of merged descriptions

Descriptions are merged with a blank comment between them, so their lines stand behind each other,
however many there are and in whatever order they are merged.  The description of a statement is
merged of the runs of comments before it; a comment behind the statement goes on with the last of
them.  Main theorem: `Pattern.lines_merged`. -/

namespace KnittingPattern

namespace Description

variable {b : Bool}

/-- Behind a blank line it does not matter what stands before. -/
theorem collapse_append (ls ls' : List String) :
    collapse b (ls ++ "" :: ls') = collapse b ls ++ collapse true ls' := by
  induction ls generalizing b with
  | nil =>
    rw [List.nil_append, collapse_blank]
    cases b <;> rfl
  | cons l ls ih =>
    by_cases hl : l = ""
    · subst hl
      rw [List.cons_append, collapse_blank, collapse_blank, ih]
      cases b <;> rfl
    · rw [List.cons_append, collapse_line hl, collapse_line hl, ih, List.cons_append]

/-- A blank comment divides what stands before it from what stands behind it. -/
theorem lines_divided (ds es : List Comment) (p : Position) :
    lines ⟨ds ++ ⟨p, ""⟩ :: es⟩ = lines ⟨ds⟩ ++ lines ⟨es⟩ := by
  have hbodies : bodies ⟨ds ++ ⟨p, ""⟩ :: es⟩ = bodies ⟨ds⟩ ++ "" :: bodies ⟨es⟩ := by
    simp only [bodies, List.map_append, List.map_cons]
    rfl
  rw [lines_eq, hbodies, collapse_append]
  rfl

theorem lines_extend (d e : Description) : (d.extend e).lines = d.lines ++ e.lines := by
  obtain ⟨ds⟩ := d
  obtain ⟨es⟩ := e
  cases es with
  | nil => exact (List.append_nil _).symm
  | cons c cs =>
    cases ds with
    | nil => rfl
    | cons d ds => exact lines_divided (d :: ds) (c :: cs) c.position

/-- A way to merge descriptions, two at a time. -/
inductive Merging where
  | run (d : Description)
  | both (before behind : Merging)

namespace Merging

/-- What becomes of the descriptions. -/
def merged : Merging → Description
  | run d => d
  | both before behind => before.merged.extend behind.merged

/-- The descriptions that are merged. -/
def runs : Merging → List Description
  | run d => [d]
  | both before behind => before.runs ++ behind.runs

theorem lines_eq_flatMap (m : Merging) : m.merged.lines = m.runs.flatMap lines := by
  induction m with
  | run d => exact (List.append_nil _).symm
  | both before behind hbefore hbehind =>
    rw [merged, lines_extend, hbefore, hbehind, runs, List.flatMap_append]

end Merging
end Description

namespace Token

open Description (lines lines_divided)

/-- Runs of comments with more comments behind them, which go on with the last run. -/
def continued : List (List Comment) → List Comment → List (List Comment)
  | [], [] => []
  | [], c :: cs => [c :: cs]
  | [run], cs => [run ++ cs]
  | run :: run' :: runs, cs => run :: continued (run' :: runs) cs

/-- Paragraphs are the merged runs. -/
theorem lines_paragraphs (rs : List (List Comment)) :
    lines ⟨paragraphs rs⟩ = rs.flatMap fun run => lines ⟨run⟩ := by
  have hseparated (cs : List Comment) (rs : List (List Comment)) :
      lines ⟨cs ++ rs.flatMap separated⟩ = lines ⟨cs⟩ ++ rs.flatMap fun run => lines ⟨run⟩ := by
    induction rs generalizing cs with
    | nil => simp
    | cons run rs ih =>
      rw [List.flatMap_cons, ← List.append_assoc, ih, List.flatMap_cons, ← List.append_assoc]
      congr 1
      cases run with
      | nil => simp [separated, lines, Description.collapse]
      | cons c run => exact lines_divided cs (c :: run) c.position
  cases rs with
  | nil => rfl
  | cons run rs => exact hseparated run rs

theorem paragraphs_continued {rs : List (List Comment)} (h : ∀ run ∈ rs, run ≠ [])
    (cs : List Comment) : paragraphs (continued rs cs) = paragraphs rs ++ cs := by
  have hbehind (rs : List (List Comment)) (h : ∀ run ∈ rs, run ≠ []) (hne : rs ≠ []) :
      (continued rs cs).flatMap separated = rs.flatMap separated ++ cs := by
    induction rs with
    | nil => exact absurd rfl hne
    | cons run rs ih =>
      obtain ⟨hrun, hrs⟩ := List.forall_mem_cons.mp h
      cases rs with
      | nil => simp [continued, separated_append hrun]
      | cons run' rs =>
        rw [continued, List.flatMap_cons, List.flatMap_cons, ih hrs (List.cons_ne_nil _ _),
          List.append_assoc]
  match rs with
  | [] => cases cs <;> simp [continued, paragraphs]
  | [run] => simp [continued, paragraphs]
  | run :: run' :: rs =>
    have hrs := (List.forall_mem_cons.mp h).2
    rw [continued, paragraphs, paragraphs, hbehind _ hrs (List.cons_ne_nil _ _), List.append_assoc]

/-- The runs of comments that describe a statement: those among the tokens before it, and a comment
behind it. -/
def describing (gap : List Token) (trailing : Option Token) : List (List Comment) :=
  continued (runs gap) (trailing.toList.map Reader.comment)

theorem lines_of_comments_eq {d : Description} {gap : List Token} {trailing : Option Token}
    (h : d.comments = paragraphs (runs gap) ++ trailing.toList.map Reader.comment) :
    d.lines = (describing gap trailing).flatMap fun run => lines ⟨run⟩ := by
  obtain ⟨cs⟩ := d
  obtain rfl : cs = _ := h
  rw [← paragraphs_continued (runs_ne_nil gap), lines_paragraphs, describing]

end Token

namespace Pattern

open Description Token

/-- Merged descriptions have their lines one behind the other, in whatever order they are merged,
and the lines of a statement's description are those of the runs of comments that describe it. -/
theorem lines_merged :
    (∀ d e : Description, (d.extend e).lines = d.lines ++ e.lines) ∧
    (∀ m : Merging, m.merged.lines = m.runs.flatMap lines) ∧
    (∀ d e f : Description, ((d.extend e).extend f).lines = (d.extend (e.extend f)).lines) ∧
    ∀ texts b, ofSources texts = .ok b → ∀ s ∈ Stmt.withinAll b.statements,
      ∃ gap trailing, gap <:+: (TokenStream.ofSources texts).tokens ∧
        (∀ t ∈ gap, t.kind.isGap) ∧
        (∀ c ∈ trailing, c ∈ (TokenStream.ofSources texts).tokens ∧ c.kind = .comment) ∧
        s.desc.comments = paragraphs (runs gap) ++ trailing.toList.map Reader.comment ∧
        s.desc.lines = (describing gap trailing).flatMap fun run => lines ⟨run⟩ := by
  refine ⟨lines_extend, Merging.lines_eq_flatMap, fun d e f => ?_, fun texts b h s hs => ?_⟩
  · rw [lines_extend, lines_extend, lines_extend, lines_extend, List.append_assoc]
  · obtain ⟨title, rest, htokens, hcollected⟩ := collected_of_ofSources h
    obtain ⟨gap, trailing, hgap, hall, htrailing, hd⟩ :=
      (hcollected.described s hs).mono (List.suffix_append title rest).isInfix
    rw [← htokens] at hgap htrailing
    exact ⟨gap, trailing, hgap, hall, htrailing, hd, lines_of_comments_eq hd⟩

/-- A stitch, and one behind two runs of comments, one of them blank, and before a comment. -/
def cuff : Block :=
  ⟨[.row [.stitch ⟨1, 1⟩ ⟨⟨1, 1⟩, "k"⟩ []] [] .none,
    .row [.stitch ⟨7, 1⟩ ⟨⟨7, 1⟩, "p"⟩ []] []
      ⟨[⟨⟨2, 1⟩, "; Rib"⟩, ⟨⟨3, 1⟩, "; wide"⟩, ⟨⟨5, 1⟩, ""⟩, ⟨⟨5, 1⟩, ";"⟩, ⟨⟨7, 3⟩, "; purl"⟩]⟩],
    ⟨1, 1⟩, ⟨8, 0⟩, .none⟩

theorem lines_merged_cuff :
    ofSources ["k\n; Rib\n; wide\n\n;\n\np ; purl\n"] = .ok cuff ∧
    ∀ s ∈ Stmt.withinAll cuff.statements, ∃ gap trailing,
      (∀ t ∈ gap, t.kind.isGap) ∧ (∀ c ∈ trailing, c.kind = .comment) ∧
      s.desc.lines = (describing gap trailing).flatMap fun run => lines ⟨run⟩ := by
  have h : ofSources ["k\n; Rib\n; wide\n\n;\n\np ; purl\n"] = .ok cuff := rfl
  refine ⟨h, fun s hs => ?_⟩
  obtain ⟨gap, trailing, -, hgap, htrailing, -, hlines⟩ := lines_merged.2.2.2 _ _ h s hs
  exact ⟨gap, trailing, hgap, fun c hc => (htrailing c hc).2, hlines⟩

end Pattern
end KnittingPattern
