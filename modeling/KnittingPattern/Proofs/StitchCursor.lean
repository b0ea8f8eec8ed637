import KnittingPattern.Proofs.RowContexts
import KnittingPattern.Proofs.WovenRows

/-! # The cursor on the stitches of a row

The cursor of a state starts on the first stitch of the row and goes from stitch to stitch.  In a row
without stitches it stays at the start, which is a brace.  A pattern has such a row only if a row
within a row of the pattern is empty.  Main theorem: `Compilation.states_cursor`. -/

namespace KnittingPattern

namespace Row

variable {row : List String} {i j : Nat}

theorem isStitchAt_of_stitchFrom? (h : stitchFrom? row i = some j) : isStitchAt row j :=
  List.find?_some h

theorem isStitchAt_of_stitchBefore? (h : stitchBefore? row i = some j) : isStitchAt row j :=
  List.find?_some h

theorem isStitchAt_iff : isStitchAt row i ↔ ∃ f, row[i]? = some f ∧ Fragment.isStitch f :=
  Option.any_eq_true _ _

theorem any_isStitch_iff : row.any Fragment.isStitch ↔ ∃ i, isStitchAt row i := by
  simp only [List.any_eq_true, List.mem_iff_getElem?, isStitchAt_iff]
  constructor
  · rintro ⟨f, ⟨i, hi⟩, hf⟩
    exact ⟨i, f, hi, hf⟩
  · rintro ⟨i, f, hi, hf⟩
    exact ⟨f, ⟨i, hi⟩, hf⟩

/-- From the start on there is a first stitch, if there is any. -/
theorem exists_stitchFrom? (h : row.any Fragment.isStitch) : ∃ i, stitchFrom? row 0 = some i := by
  obtain ⟨i, hi⟩ := any_isStitch_iff.mp h
  obtain ⟨f, hf, -⟩ := isStitchAt_iff.mp hi
  have hlen : i < row.length := (List.getElem?_eq_some_iff.mp hf).1
  rw [← Option.isSome_iff_exists, stitchFrom?, List.find?_isSome]
  exact ⟨i, by simpa using hlen, hi⟩

theorem stitchFrom?_eq_none (h : row.any Fragment.isStitch = false) : stitchFrom? row i = none :=
  List.find?_eq_none.mpr fun _ _ hk => by simp [any_isStitch_iff.mpr ⟨_, hk⟩] at h

theorem stitchBefore?_eq_none (h : row.any Fragment.isStitch = false) :
    stitchBefore? row i = none :=
  List.find?_eq_none.mpr fun _ _ hk => by simp [any_isStitch_iff.mpr ⟨_, hk⟩] at h

end Row

/-- What the knitter does at a state. -/
inductive Act where
  | moveLeft
  | moveRight
  | count (what : Counter) (how : Counting)
deriving DecidableEq

namespace State

def act (s : State) : Act → State
  | .moveLeft => s.moveLeft
  | .moveRight => s.moveRight
  | .count what how => s.count what how

def actAll (s : State) (acts : List Act) : State := acts.foldl act s

/-- The cursor is on a stitch; in a row without stitches it is at the start. -/
structure Rests (s : State) : Prop where
  stitch : s.row.any Fragment.isStitch → Row.isStitchAt s.row s.counters.phrase
  start : s.row.any Fragment.isStitch = false → s.counters.phrase = 0

theorem rests_ofRow (desc : Descriptions) (row args : List String) : (ofRow desc row args).Rests where
  stitch h := by
    obtain ⟨i, hi⟩ : ∃ i, Row.stitchFrom? row 0 = some i := Row.exists_stitchFrom? h
    have hphrase : (ofRow desc row args).counters.phrase = i := by simp [ofRow, hi]
    rw [hphrase]
    exact Row.isStitchAt_of_stitchFrom? hi
  start h := by
    have hnone : Row.stitchFrom? row 0 = none := Row.stitchFrom?_eq_none h
    simp [ofRow, hnone]

/-- A cursor that rests goes on to rest where it finds a stitch, and stays if it finds none. -/
theorem Rests.movePhrase {s : State} (h : s.Rests) {found : Option Nat}
    (hs : ∀ i, found = some i → Row.isStitchAt s.row i)
    (hn : s.row.any Fragment.isStitch = false → found = none) :
    (s.withCounters (s.counters.movePhrase (found.getD s.counters.phrase))).Rests := by
  cases found with
  | none => exact ⟨h.stitch, h.start⟩
  | some i => exact ⟨fun _ => hs i rfl, fun hrow => nomatch hn hrow⟩

theorem Rests.act {s : State} (h : s.Rests) (a : Act) : (s.act a).Rests := by
  cases a with
  | moveLeft =>
    exact h.movePhrase (fun _ => Row.isStitchAt_of_stitchBefore?) Row.stitchBefore?_eq_none
  | moveRight =>
    exact h.movePhrase (fun _ => Row.isStitchAt_of_stitchFrom?) Row.stitchFrom?_eq_none
  | count what how => cases what <;> exact ⟨h.stitch, h.start⟩

theorem Rests.actAll {s : State} (h : s.Rests) (acts : List Act) : (s.actAll acts).Rests := by
  induction acts generalizing s with
  | nil => exact h
  | cons a acts ih => exact ih (h.act a)

theorem row_act (s : State) (a : Act) : (s.act a).row = s.row := by
  cases a <;> rfl

theorem row_actAll (s : State) (acts : List Act) : (s.actAll acts).row = s.row := by
  induction acts generalizing s with
  | nil => rfl
  | cons a acts ih => exact (ih _).trans (s.row_act a)

theorem historyRow_actAll (s : State) (acts : List Act) :
    (s.actAll acts).historyRow = s.historyRow := by
  induction acts generalizing s with
  | nil => rfl
  | cons a acts ih =>
    have hact : (s.act a).historyRow = s.historyRow := by cases a <;> rfl
    exact (ih _).trans hact

end State

/-- The cursor of a state of a compiled pattern, whatever the knitter does.  It is on a stitch of the
row, if the row has one, so always if no row within a row of the pattern is empty.  Else it is at the
start of the row, on a brace. -/
theorem Compilation.states_cursor {texts : List String} {b : Block} {ss : List State}
    (h : Pattern.ofSources texts = .ok b) (hs : states b = .ok ss) {s : State} (hm : s ∈ ss)
    (acts : List Act) :
    (s.actAll acts).row = s.row ∧
    (b.isFilled → Row.isStitchAt s.row (s.actAll acts).counters.phrase) ∧
    (s.row.any Fragment.isStitch → Row.isStitchAt s.row (s.actAll acts).counters.phrase) ∧
    (s.row.any Fragment.isStitch = false →
      (s.actAll acts).counters.phrase = 0 ∧ s.row[0]? = some Fragment.opening) := by
  obtain ⟨rs, outer, desc, args, c, hr, hp⟩ := exists_context h hs hm
  obtain ⟨after, rfl⟩ := hp.records
  have hrow : s.row = c.row := by
    rw [hp.state]
    rfl
  have hwoven : Row.Woven (!b.isFilled) s.row := by
    rw [hrow]
    exact b.weave_records h hr c (by simp)
  have hne : s.row ≠ [] := hrow ▸ hp.row
  have hrests : s.Rests := by
    have hbegun := State.rests_ofRow .none c.row c.args
    rw [hp.state]
    exact ⟨hbegun.stitch, hbegun.start⟩
  have hall := hrests.actAll acts
  have hstitch := hall.stitch
  have hstart := hall.start
  rw [s.row_actAll acts] at hstitch hstart
  refine ⟨s.row_actAll acts, fun hf => hstitch ?_, hstitch, fun hn => ⟨hstart hn, ?_⟩⟩
  · rw [hf] at hwoven
    exact hwoven.any_isStitch hne
  · rw [← List.head?_eq_getElem?]
    exact hwoven.head?_eq_opening hne hn

/-- `k {p k}(2)` -/
def Block.bracedPart : Block :=
  let stitch (p : Position) (s : String) : Expr := .stitch p ⟨p, s⟩ []
  let two : Expr := .size ⟨⟨1, 9⟩, .whole 2, .count, false⟩
  ⟨[.row [stitch ⟨1, 1⟩ "k", .row [stitch ⟨1, 4⟩ "p", stitch ⟨1, 6⟩ "k"] [two]] [] .none],
    ⟨1, 1⟩, ⟨2, 0⟩, .none⟩

def State.bracedPart : State :=
  .ofRow .none ["k", "\x7b", "p", "k", "\x7d 2"] []

theorem Compilation.states_cursor_bracedPart :
    Pattern.ofSources ["k \x7bp k\x7d(2)\n"] = .ok Block.bracedPart ∧
    states Block.bracedPart = .ok [State.bracedPart] ∧
    (State.bracedPart.actAll [.moveRight]).counters.phrase = 2 ∧
    Row.isStitchAt State.bracedPart.row (State.bracedPart.actAll [.moveRight]).counters.phrase := by
  have h : Pattern.ofSources ["k \x7bp k\x7d(2)\n"] = .ok Block.bracedPart := rfl
  have hs : states Block.bracedPart = .ok [State.bracedPart] := rfl
  obtain ⟨-, hstitch, -, -⟩ := states_cursor h hs (List.mem_singleton_self _) [.moveRight]
  exact ⟨h, hs, rfl, hstitch (by decide)⟩

/-- A row of nothing but an empty row; the cursor of its state is on a brace. -/
theorem Compilation.cursor_on_brace :
    let b : Block := ⟨[.row [.row [] []] [] .none], ⟨1, 1⟩, ⟨2, 0⟩, .none⟩
    let s := State.ofRow .none ["\x7b", "\x7d"] []
    Pattern.ofSources ["\x7b\x7b\x7d\x7d\n"] = .ok b ∧ states b = .ok [s] ∧
      s.row[s.counters.phrase]? = some Fragment.opening ∧
      ¬ Row.isStitchAt s.row s.counters.phrase :=
  ⟨rfl, rfl, rfl, by decide⟩

end KnittingPattern
