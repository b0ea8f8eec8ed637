import KnittingPattern.Proofs.StitchCursor
import KnittingPattern.Viewer.Span

/-! # Rows as the viewer shows them

The spans of a row, one behind the other, are the row on one line: the rule by which the viewer puts
its commas agrees with the one of the row (`Span.hasComma_eq_comma`).  Of all the spans only the one
of the fragment under the cursor stands out.  Main theorem: `Span.ofState_shown`. -/

namespace KnittingPattern

namespace Row

/-- What is written before the fragment of number `k`. -/
def textBefore (row : List String) (k : Nat) : String :=
  String.join (((withCommas row).take k).map fun f => f ++ " ")

@[simp] theorem textBefore_zero (row : List String) : textBefore row 0 = "" := rfl

theorem textBefore_succ (f : String) (fs : List String) (k : Nat) :
    textBefore (f :: fs) (k + 1) =
      f ++ ((if comma f fs then "," else "") ++ (" " ++ textBefore fs k)) := by
  simp only [textBefore, withCommas, List.take_succ_cons, List.map_cons, String.join_cons]
  split <;> simp only [String.append_assoc, String.empty_append]

end Row

namespace Span

/-- The text of spans, one behind the other. -/
def textOf (spans : List Span) : String := String.join (spans.map text)

@[simp] theorem textOf_nil : textOf [] = "" := rfl

@[simp] theorem textOf_cons (x : Span) (spans : List Span) :
    textOf (x :: spans) = x.text ++ textOf spans := String.join_cons

@[simp] theorem textOf_append (spans later : List Span) :
    textOf (spans ++ later) = textOf spans ++ textOf later := by
  simp [textOf]

/-- The blank before the fragment of number `i`. -/
def blankBefore (i : Nat) : List Span := if 0 < i then [⟨" ", .normal⟩] else []

/-- The comma behind a fragment, if there is one. -/
def commaBehind (shown : Bool) : List Span := if shown then [⟨",", .normal⟩] else []

/-- The spans of the fragments of a row from number `i` on. -/
def ofRest (row : List String) (cursor i : Nat) (fs : List String) : List Span :=
  (fs.zipIdx i).flatMap fun (fragment, k) => ofFragment row cursor k fragment

variable {row : List String} {cursor i : Nat}

theorem ofRest_cons (f : String) (fs : List String) :
    ofRest row cursor i (f :: fs) = blankBefore i ++
      ⟨f, if i = cursor then .highlight else .normal⟩ ::
        (commaBehind (hasComma row i f) ++ ofRest row cursor (i + 1) fs) := by
  simp [ofRest, ofFragment, blankBefore, commaBehind]

/-- The viewer shows a comma where the row on one line has one. -/
theorem hasComma_eq_comma (before : List String) (f : String) (fs : List String) :
    hasComma (before ++ f :: fs) before.length f = Row.comma f fs := by
  cases fs with
  | nil => simp [hasComma, Row.comma]
  | cons g gs =>
    have hnext : (before ++ f :: g :: gs)[before.length + 1]? = some g := by simp
    have hlast : (before.length + 1 == (before ++ f :: g :: gs).length) = false := by simp
    simp only [hasComma, hnext, hlast, Option.any_some, Bool.not_false, Bool.and_true]
    rfl

theorem textOf_blankBefore (i : Nat) : textOf (blankBefore i) = if 0 < i then " " else "" := by
  unfold blankBefore
  split <;> simp

theorem textOf_commaBehind (shown : Bool) :
    textOf (commaBehind shown) = if shown then "," else "" := by
  cases shown <;> simp [commaBehind]

theorem style_blankBefore (i : Nat) : ∀ x ∈ blankBefore i, x.style = .normal := by
  unfold blankBefore
  split <;> simp

theorem style_commaBehind (shown : Bool) : ∀ x ∈ commaBehind shown, x.style = .normal := by
  cases shown <;> simp [commaBehind]

/-- Behind a part of a row the rest goes on with a blank. -/
theorem textOf_ofRest (before fs : List String) :
    textOf (ofRest (before ++ fs) cursor before.length fs) =
      (if before = [] ∨ fs = [] then "" else " ") ++ Row.text fs := by
  induction fs generalizing before with
  | nil => simp [ofRest]
  | cons f fs ih =>
    have hrest := ih (before ++ [f])
    rw [← List.append_cons, List.length_append, List.length_singleton] at hrest
    simp only [ofRest_cons, hasComma_eq_comma, textOf_append, textOf_cons, textOf_blankBefore,
      textOf_commaBehind, hrest, Row.text_cons, Row.separator]
    cases before <;> cases fs <;> simp [String.append_assoc]

/-- All spans are normal, if the cursor is on none of the fragments. -/
theorem style_of_outside {fs : List String} (h : cursor < i ∨ i + fs.length ≤ cursor) :
    ∀ x ∈ ofRest row cursor i fs, x.style = .normal := by
  induction fs generalizing i with
  | nil => simp [ofRest]
  | cons f fs ih =>
    have hne : i ≠ cursor := by
      rw [List.length_cons] at h
      omega
    rw [ofRest_cons, if_neg hne]
    refine List.forall_mem_append.mpr ⟨style_blankBefore i, List.forall_mem_cons.mpr ⟨rfl, ?_⟩⟩
    refine List.forall_mem_append.mpr ⟨style_commaBehind _, ih ?_⟩
    rw [List.length_cons] at h
    omega

/-- The span of the fragment of number `k` of the rest is the only one that stands out.  What is
written before it begins with the blank before the rest. -/
theorem exists_highlight (before : List String) {fs : List String} {k : Nat} {f : String}
    (h : fs[k]? = some f) (hk : cursor = before.length + k) :
    ∃ passed left, ofRest (before ++ fs) cursor before.length fs =
        passed ++ ⟨f, .highlight⟩ :: left ∧
      (∀ x ∈ passed ++ left, x.style = .normal) ∧
      textOf passed = textOf (blankBefore before.length) ++ Row.textBefore fs k := by
  induction fs generalizing before k with
  | nil => cases h
  | cons g gs ih =>
    rw [ofRest_cons, hasComma_eq_comma]
    cases k with
    | zero =>
      obtain rfl : g = f := by simpa using h
      have hpassed : cursor < before.length + 1 := by omega
      refine ⟨blankBefore before.length, commaBehind (Row.comma g gs) ++
        ofRest (before ++ g :: gs) cursor (before.length + 1) gs, ?_, ?_, ?_⟩
      · rw [if_pos (hk.trans (Nat.add_zero _)).symm]
      · exact List.forall_mem_append.mpr ⟨style_blankBefore _, List.forall_mem_append.mpr
          ⟨style_commaBehind _, style_of_outside (.inl hpassed)⟩⟩
      · simp
    | succ k =>
      have hlater : cursor = (before ++ [g]).length + k := by
        rw [List.length_append, List.length_singleton]
        omega
      obtain ⟨passed, left, hspans, hstyle, htext⟩ := ih (before ++ [g]) (by simpa using h) hlater
      rw [← List.append_cons, List.length_append, List.length_singleton] at hspans
      rw [List.forall_mem_append] at hstyle
      have hnormal : before.length ≠ cursor := by omega
      refine ⟨blankBefore before.length ++ ⟨g, .normal⟩ ::
        (commaBehind (Row.comma g gs) ++ passed), left, ?_, ?_, ?_⟩
      · simp [hspans, hnormal]
      · simp only [List.forall_mem_append, List.forall_mem_cons]
        exact ⟨⟨style_blankBefore _, trivial, style_commaBehind _, hstyle.1⟩, hstyle.2⟩
      · have hblank : textOf (blankBefore (before ++ [g]).length) = " " := by
          simp [textOf_blankBefore]
        simp only [textOf_append, textOf_cons, textOf_commaBehind, htext, hblank,
          Row.textBefore_succ]

/-- The spans of a state make its row on one line, which is the row that a state of it has stored,
whatever the knitter does.  The span of the fragment under the cursor stands out, behind all that is
written before this fragment, and nothing else does; nothing stands out if there is no such
fragment. -/
theorem ofState_shown (s : State) :
    textOf (ofState s) = Row.text s.row ∧
    (∀ desc row args acts, s = (State.ofRow desc row args).actAll acts →
      textOf (ofState s) = s.historyRow) ∧
    (∀ f, s.row[s.counters.phrase]? = some f → ∃ before after,
      ofState s = before ++ ⟨f, .highlight⟩ :: after ∧
      (∀ x ∈ before ++ after, x.style ≠ .highlight) ∧
      textOf before = Row.textBefore s.row s.counters.phrase) ∧
    (s.row[s.counters.phrase]? = none → ∀ x ∈ ofState s, x.style ≠ .highlight) := by
  have htext : textOf (ofState s) = Row.text s.row :=
    (textOf_ofRest [] s.row).trans (by simp)
  have hplain {x : Span} (hx : x.style = .normal) : x.style ≠ .highlight := by
    rw [hx]
    decide
  refine ⟨htext, ?_, fun f hf => ?_, fun hf x hx => hplain ?_⟩
  · rintro desc row args acts rfl
    rw [htext, State.row_actAll, State.historyRow_actAll]
    rfl
  · obtain ⟨passed, left, hspans, hstyle, hpassed⟩ :=
      exists_highlight [] hf (Nat.zero_add _).symm
    refine ⟨passed, left, hspans, fun x hx => hplain (hstyle x hx), ?_⟩
    simpa [blankBefore] using hpassed
  · have hlen := List.getElem?_eq_none_iff.mp hf
    exact style_of_outside (.inr (by omega)) x hx

/-- A row that begins with a brace; the cursor is on the stitch behind the braces. -/
theorem ofState_shown_behindBraces :
    let row := ["\x7b", "p 2", "yo", "\x7d 3", "k"]
    let s := (State.ofRow .none row []).actAll [.moveRight, .moveRight]
    s.historyRow = "\x7b p 2, yo \x7d 3, k" ∧ textOf (ofState s) = s.historyRow ∧
    s.row[s.counters.phrase]? = some "k" ∧
    ∃ before after, ofState s = before ++ ⟨"k", .highlight⟩ :: after ∧
      (∀ x ∈ before ++ after, x.style ≠ .highlight) ∧
      textOf before = "\x7b p 2, yo \x7d 3, " := by
  intro row s
  obtain ⟨-, hstored, hshown, -⟩ := ofState_shown s
  have hrow : s.historyRow = "\x7b p 2, yo \x7d 3, k" := by decide +kernel
  have hf : s.row[s.counters.phrase]? = some "k" := by decide +kernel
  have hpassed : Row.textBefore s.row s.counters.phrase = "\x7b p 2, yo \x7d 3, " := by
    decide +kernel
  have hspans := hshown "k" hf
  rw [hpassed] at hspans
  exact ⟨hrow, hstored .none row [] _ rfl, hf, hspans⟩

end Span
end KnittingPattern
