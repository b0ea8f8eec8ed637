import KnittingPattern.Pattern.Reader
import Mathlib.Tactic.SplitIfs

/-! # Runs of comments

Between two statements stand comments, line breaks and ends of texts.  The comments come in runs: a
run goes on as long as one line break is all that stands between two comments.  The runs become
paragraphs of one description.  Main definitions: `Token.runs`, `Token.paragraphs`. -/

namespace KnittingPattern

open Token (Kind)

namespace Token

/-- Tokens that stand between the lines of statements. -/
def Kind.isGap : Kind → Bool
  | .comment | .newline | .endOfSource => true
  | _ => false

/-- One line break and a comment. -/
def goesOn : List Token → Bool
  | n :: c :: _ => n.kind == .newline && c.kind == .comment
  | _ => false

/-- The comments among tokens, in runs. -/
def runs : List Token → List (List Comment)
  | [] => []
  | c :: ts =>
    if c.kind = .comment then
      if goesOn ts then (runs ts).modifyHead (Reader.comment c :: ·)
      else [Reader.comment c] :: runs ts
    else runs ts

/-- A run behind another one: an empty comment divides them. -/
def separated : List Comment → List Comment
  | [] => []
  | c :: cs => ⟨c.position, ""⟩ :: c :: cs

/-- Runs one behind the other. -/
def paragraphs : List (List Comment) → List Comment
  | [] => []
  | run :: runs => run ++ runs.flatMap separated

/-- The description that the comments among tokens make. -/
def lead (ts : List Token) : List Comment := paragraphs (runs ts)

variable {c t : Token} {gap : List Token}

theorem runs_ne_nil (ts : List Token) : ∀ run ∈ runs ts, run ≠ [] := by
  induction ts with
  | nil => simp [runs]
  | cons c ts ih =>
    rw [runs]
    split_ifs
    · cases hr : runs ts with
      | nil => simp
      | cons run rest =>
        rw [hr] at ih
        simpa using (List.forall_mem_cons.mp ih).2
    · simpa using ih
    · exact ih

theorem exists_runs_of_goesOn {ts : List Token} (h : goesOn ts) :
    ∃ run rest, runs ts = run :: rest := by
  match ts with
  | n :: c :: ts =>
    simp only [goesOn, Bool.and_eq_true, beq_iff_eq] at h
    have hn : n.kind ≠ .comment := by simp [h.1]
    rw [runs, if_neg hn, runs, if_pos h.2]
    split_ifs with hts
    · obtain ⟨run, rest, hr⟩ := exists_runs_of_goesOn hts
      exact ⟨_, _, by rw [hr, List.modifyHead_cons]⟩
    · exact ⟨_, _, rfl⟩

theorem lead_ne_nil_of_goesOn {ts : List Token} (h : goesOn ts) : lead ts ≠ [] := by
  obtain ⟨run, rest, hr⟩ := exists_runs_of_goesOn h
  obtain ⟨c, cs, rfl⟩ :=
    List.exists_cons_of_ne_nil (runs_ne_nil ts run (hr ▸ List.mem_cons_self))
  rw [lead, hr]
  exact List.cons_ne_nil _ _

theorem lead_cons_of_not_comment (hc : c.kind ≠ .comment) (ts : List Token) :
    lead (c :: ts) = lead ts := by
  rw [lead, runs, if_neg hc, lead]

theorem lead_cons_of_goesOn (hc : c.kind = .comment) {ts : List Token} (h : goesOn ts) :
    lead (c :: ts) = Reader.comment c :: lead ts := by
  obtain ⟨run, rest, hr⟩ := exists_runs_of_goesOn h
  rw [lead, runs, if_pos hc, if_pos h, lead, hr]
  rfl

theorem separated_lead (ts : List Token) : separated (lead ts) = (runs ts).flatMap separated := by
  have hne := runs_ne_nil ts
  unfold lead
  cases hr : runs ts with
  | nil => rfl
  | cons run rest =>
    rw [hr] at hne
    obtain ⟨c, cs, rfl⟩ := List.exists_cons_of_ne_nil (hne run List.mem_cons_self)
    rfl

theorem lead_cons_of_stops (hc : c.kind = .comment) {ts : List Token} (h : goesOn ts = false) :
    lead (c :: ts) = Reader.comment c :: separated (lead ts) := by
  rw [lead, runs, if_pos hc, if_neg (by simp [h]), separated_lead]
  rfl

theorem separated_append {cs : List Comment} (h : cs ≠ []) (ds : List Comment) :
    separated (cs ++ ds) = separated cs ++ ds := by
  obtain ⟨c, cs, rfl⟩ := List.exists_cons_of_ne_nil h
  rfl

/-- The tokens end in a comment and one line break. -/
def Pauses (gap : List Token) : Prop :=
  ∃ pre c n, gap = pre ++ [c, n] ∧ c.kind = .comment ∧ n.kind = .newline

theorem lead_concat_of_not_comment (ht : t.kind ≠ .comment) : lead (gap ++ [t]) = lead gap := by
  have hgoes (ts : List Token) : goesOn (ts ++ [t]) = goesOn ts := by
    match ts with
    | [] => rfl
    | [n] => simp [goesOn, ht]
    | n :: c :: ts => rfl
  induction gap with
  | nil => exact lead_cons_of_not_comment ht []
  | cons c ts ih =>
    rw [List.cons_append]
    by_cases hc : c.kind = .comment
    · cases h : goesOn ts with
      | true => rw [lead_cons_of_goesOn hc h, lead_cons_of_goesOn hc ((hgoes ts).trans h), ih]
      | false => rw [lead_cons_of_stops hc h, lead_cons_of_stops hc ((hgoes ts).trans h), ih]
    · rw [lead_cons_of_not_comment hc, lead_cons_of_not_comment hc, ih]

/-- A comment behind one line break goes on with the run. -/
theorem lead_concat_of_pauses (h : Pauses gap) (hc : c.kind = .comment) :
    lead (gap ++ [c]) = lead gap ++ [Reader.comment c] := by
  obtain ⟨pre, u, n, rfl, hu, hn⟩ := h
  have hgoes (pre : List Token) : goesOn (pre ++ [u, n] ++ [c]) = goesOn (pre ++ [u, n]) := by
    match pre with
    | [] | [_] | _ :: _ :: _ => rfl
  have hne (pre : List Token) : lead (pre ++ [u, n]) ≠ [] := by
    induction pre with
    | nil => rw [List.nil_append, lead_cons_of_stops hu rfl]; simp
    | cons t pre ih =>
      by_cases ht : t.kind = .comment
      · cases hg : goesOn (pre ++ [u, n]) with
        | true => rw [List.cons_append, lead_cons_of_goesOn ht hg]; simp
        | false => rw [List.cons_append, lead_cons_of_stops ht hg]; simp
      · rwa [List.cons_append, lead_cons_of_not_comment ht]
  induction pre with
  | nil =>
    have hn' : n.kind ≠ .comment := by simp [hn]
    have hgo : goesOn [n, c] := by simp [goesOn, hn, hc]
    change lead [u, n, c] = lead [u, n] ++ _
    rw [lead_cons_of_goesOn hu hgo, lead_cons_of_stops hu rfl, lead_cons_of_not_comment hn',
      lead_cons_of_not_comment hn', lead_cons_of_stops hc rfl]
    rfl
  | cons t pre ih =>
    rw [List.cons_append, List.cons_append]
    by_cases ht : t.kind = .comment
    · cases hg : goesOn (pre ++ [u, n]) with
      | true =>
        rw [lead_cons_of_goesOn ht hg, lead_cons_of_goesOn ht ((hgoes pre).trans hg), ih]
        rfl
      | false =>
        rw [lead_cons_of_stops ht hg, lead_cons_of_stops ht ((hgoes pre).trans hg), ih,
          separated_append (hne pre)]
        rfl
    · rw [lead_cons_of_not_comment ht, lead_cons_of_not_comment ht, ih]

/-- Any other comment begins a run. -/
theorem lead_concat_of_not_pauses (h : ¬Pauses gap) (hc : c.kind = .comment) :
    lead (gap ++ [c]) = (Description.extend ⟨lead gap⟩ ⟨[Reader.comment c]⟩).comments := by
  induction gap with
  | nil => exact lead_cons_of_stops hc rfl
  | cons t ts ih =>
    have hts : ¬Pauses ts := by
      rintro ⟨pre, u, n, rfl, hu, hn⟩
      exact h ⟨t :: pre, u, n, rfl, hu, hn⟩
    have hts := ih hts
    rw [List.cons_append]
    by_cases ht : t.kind = .comment
    · have hgoes : goesOn (ts ++ [c]) = goesOn ts := by
        match ts with
        | [] => rfl
        | [n] =>
          have hn : n.kind ≠ .newline := fun hn => h ⟨[], t, n, rfl, ht, hn⟩
          simp [goesOn, hn]
        | _ :: _ :: _ => rfl
      cases hg : goesOn ts with
      | true =>
        rw [lead_cons_of_goesOn ht hg, lead_cons_of_goesOn ht (hgoes.trans hg), hts]
        cases hl : lead ts with
        | nil => exact absurd hl (lead_ne_nil_of_goesOn hg)
        | cons d ds => rfl
      | false =>
        rw [lead_cons_of_stops ht hg, lead_cons_of_stops ht (hgoes.trans hg), hts]
        cases lead ts <;> rfl
    · rw [lead_cons_of_not_comment ht, lead_cons_of_not_comment ht, hts]

end Token
end KnittingPattern
