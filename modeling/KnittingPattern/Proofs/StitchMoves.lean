import KnittingPattern.Proofs.StitchCursor
import Mathlib.Order.Bounds.Basic

/-! # Moves from stitch to stitch

A move to the right takes the cursor to the least index of a stitch behind it, a move to the left to
the greatest one before it.  So the cursor of a row that is not begun comes by every stitch once, in
their order, and the two moves undo each other.  Main theorem: `State.moves_ofRow`. -/

namespace KnittingPattern

namespace Row

variable {row : List String} {i j n : Nat}

theorem lt_length_of_isStitchAt (h : isStitchAt row i) : i < row.length := by
  obtain ⟨f, hf, -⟩ := isStitchAt_iff.mp h
  exact (List.getElem?_eq_some_iff.mp hf).1

theorem stitchFrom?_eq_some_iff :
    stitchFrom? row i = some j ↔ IsLeast {k | i ≤ k ∧ isStitchAt row k} j := by
  rw [stitchFrom?, List.find?_range'_eq_some]
  constructor
  · rintro ⟨hj, hmem, hbefore⟩
    refine ⟨⟨(List.mem_range'_1.mp hmem).1, hj⟩, fun k hk => ?_⟩
    by_contra hkj
    have hnot := hbefore k hk.1 (Nat.lt_of_not_le hkj)
    simp [hk.2] at hnot
  · rintro ⟨⟨hij, hj⟩, hleast⟩
    have hlen := lt_length_of_isStitchAt hj
    refine ⟨hj, List.mem_range'_1.mpr ⟨hij, by omega⟩, fun k hik hkj => ?_⟩
    by_contra hk
    exact Nat.not_le_of_lt hkj (hleast ⟨hik, by simpa using hk⟩)

theorem find?_reverse_range_eq_some_iff {p : Nat → Bool} :
    (List.range n).reverse.find? p = some j ↔ IsGreatest {k | k < n ∧ p k} j := by
  induction n with
  | zero => simp [IsGreatest]
  | succ n ih =>
    rw [List.range_succ, List.reverse_append, List.reverse_singleton, List.singleton_append,
      List.find?_cons]
    cases hn : p n with
    | true =>
      have hgreatest : IsGreatest {k | k < n + 1 ∧ p k} n :=
        ⟨⟨Nat.lt_succ_self n, hn⟩, fun k hk => Nat.le_of_lt_succ hk.1⟩
      constructor
      · rintro ⟨rfl⟩
        exact hgreatest
      · exact fun h => congrArg some (hgreatest.unique h)
    | false =>
      have hset : {k | k < n + 1 ∧ p k} = {k | k < n ∧ p k} := by
        refine Set.ext fun k => and_congr_left fun hk => ?_
        have hne : k ≠ n := by
          rintro rfl
          simp [hn] at hk
        omega
      rw [hset]
      exact ih

theorem stitchBefore?_eq_some_iff :
    stitchBefore? row i = some j ↔ IsGreatest {k | k < i ∧ isStitchAt row k} j := by
  have hset : {k | k < min i row.length ∧ isStitchAt row k} = {k | k < i ∧ isStitchAt row k} := by
    refine Set.ext fun k => and_congr_left fun hk => ?_
    have hlen := lt_length_of_isStitchAt hk
    omega
  rw [stitchBefore?, find?_reverse_range_eq_some_iff, hset]

/-- From the stitch behind a stitch the one before is the same. -/
theorem stitchBefore?_of_stitchFrom? (hi : isStitchAt row i)
    (h : stitchFrom? row (i + 1) = some j) : stitchBefore? row j = some i := by
  obtain ⟨⟨hij, -⟩, hleast⟩ := stitchFrom?_eq_some_iff.mp h
  refine stitchBefore?_eq_some_iff.mpr ⟨⟨hij, hi⟩, fun k ⟨hkj, hk⟩ => ?_⟩
  by_contra hik
  exact Nat.not_le_of_lt hkj (hleast ⟨Nat.lt_of_not_le hik, hk⟩)

theorem stitchFrom?_of_stitchBefore? (hi : isStitchAt row i) (h : stitchBefore? row i = some j) :
    stitchFrom? row (j + 1) = some i := by
  obtain ⟨⟨hji, -⟩, hgreatest⟩ := stitchBefore?_eq_some_iff.mp h
  refine stitchFrom?_eq_some_iff.mpr ⟨⟨hji, hi⟩, fun k ⟨hjk, hk⟩ => ?_⟩
  by_contra hik
  exact Nat.not_le_of_lt hjk (hgreatest ⟨Nat.lt_of_not_le hik, hk⟩)

theorem exists_stitchFrom?_of_le (hij : i ≤ j) (hj : isStitchAt row j) :
    ∃ k, stitchFrom? row i = some k := by
  have hlen := lt_length_of_isStitchAt hj
  rw [← Option.isSome_iff_exists, stitchFrom?, List.find?_isSome]
  exact ⟨j, List.mem_range'_1.mpr ⟨hij, by omega⟩, hj⟩

theorem exists_stitchBefore?_of_lt (hji : j < i) (hj : isStitchAt row j) :
    ∃ k, stitchBefore? row i = some k := by
  have hlen := lt_length_of_isStitchAt hj
  rw [← Option.isSome_iff_exists, stitchBefore?, List.find?_isSome]
  exact ⟨j, by simpa using ⟨hji, hlen⟩, hj⟩

/-- The indices of the stitches, in their order. -/
def stitches (row : List String) : List Nat := (List.range row.length).filter (isStitchAt row)

/-- The indices of the stitches from `i` on, in their order. -/
def stitchesFrom (row : List String) (i : Nat) : List Nat :=
  (List.range' i (row.length - i)).filter (isStitchAt row)

theorem head?_stitchesFrom : (stitchesFrom row i).head? = stitchFrom? row i := List.head?_filter

theorem stitchesFrom_of_cons {js : List Nat} (h : stitchesFrom row i = j :: js) :
    stitchFrom? row i = some j ∧ stitchesFrom row (j + 1) = js := by
  refine ⟨by rw [← head?_stitchesFrom, h]; rfl, ?_⟩
  obtain ⟨before, after, hrange, -, -, rfl⟩ := List.filter_eq_cons_iff.mp h
  obtain ⟨k, -, -, hafter⟩ := List.range'_eq_append_iff.mp hrange
  obtain ⟨hj, -, rfl⟩ := List.range'_eq_cons_iff.mp hafter.symm
  rw [stitchesFrom, show row.length - i - k - 1 = row.length - (j + 1) by omega]

end Row

namespace State

variable {s : State} {i j : Nat}

/-- The indices of the stitches behind the cursor. -/
def later (s : State) : Set Nat := {k | s.counters.phrase < k ∧ Row.isStitchAt s.row k}

/-- The indices of the stitches before the cursor. -/
def earlier (s : State) : Set Nat := {k | k < s.counters.phrase ∧ Row.isStitchAt s.row k}

/-- A move goes to the next stitch on its side, or else changes nothing. -/
structure Moves (s : State) : Prop where
  right : s.later.Nonempty → IsLeast s.later s.moveRight.counters.phrase
  left : s.earlier.Nonempty → IsGreatest s.earlier s.moveLeft.counters.phrase
  rightmost : s.later = ∅ → s.moveRight = s
  leftmost : s.earlier = ∅ → s.moveLeft = s

theorem rests_of_isStitchAt (h : Row.isStitchAt s.row s.counters.phrase) : s.Rests where
  stitch _ := h
  start hrow := by simp [Row.any_isStitch_iff.mpr ⟨_, h⟩] at hrow

/-- A cursor that rests is within its row, so no number begins again behind it. -/
theorem Rests.stitchFrom?_behindCursor (hs : s.Rests) :
    Row.stitchFrom? s.row s.behindCursor = Row.stitchFrom? s.row (s.counters.phrase + 1) := by
  cases h : s.row.any Fragment.isStitch with
  | true => rw [behindCursor, if_pos (Row.lt_length_of_isStitchAt (hs.stitch h))]
  | false => rw [Row.stitchFrom?_eq_none h, Row.stitchFrom?_eq_none h]

theorem Rests.moveRight_of_some (hs : s.Rests)
    (h : Row.stitchFrom? s.row (s.counters.phrase + 1) = some j) :
    s.moveRight = s.withCounters (s.counters.movePhrase j) := by
  rw [moveRight, hs.stitchFrom?_behindCursor, h]
  rfl

theorem Rests.moveRight_of_none (hs : s.Rests)
    (h : Row.stitchFrom? s.row (s.counters.phrase + 1) = none) : s.moveRight = s := by
  rw [moveRight, hs.stitchFrom?_behindCursor, h]
  rfl

theorem moveLeft_of_some (h : Row.stitchBefore? s.row s.counters.phrase = some j) :
    s.moveLeft = s.withCounters (s.counters.movePhrase j) := by
  rw [moveLeft, h]
  rfl

theorem moveLeft_of_none (h : Row.stitchBefore? s.row s.counters.phrase = none) :
    s.moveLeft = s := by
  rw [moveLeft, h]
  rfl

theorem Rests.moves (hs : s.Rests) : s.Moves where
  right h := by
    obtain ⟨k, hk, hstitch⟩ := h
    obtain ⟨j, hj⟩ := Row.exists_stitchFrom?_of_le hk hstitch
    rw [hs.moveRight_of_some hj]
    exact Row.stitchFrom?_eq_some_iff.mp hj
  left h := by
    obtain ⟨k, hk, hstitch⟩ := h
    obtain ⟨j, hj⟩ := Row.exists_stitchBefore?_of_lt hk hstitch
    rw [moveLeft_of_some hj]
    exact Row.stitchBefore?_eq_some_iff.mp hj
  rightmost h := by
    refine hs.moveRight_of_none (Option.eq_none_iff_forall_ne_some.mpr fun j hj => ?_)
    have hmem : j ∈ s.later := (Row.stitchFrom?_eq_some_iff.mp hj).1
    rw [h] at hmem
    exact hmem
  leftmost h := by
    refine moveLeft_of_none (Option.eq_none_iff_forall_ne_some.mpr fun j hj => ?_)
    have hmem : j ∈ s.earlier := (Row.stitchBefore?_eq_some_iff.mp hj).1
    rw [h] at hmem
    exact hmem

/-- From a stitch, a move to the left undoes one to the right that has moved. -/
theorem moveLeft_moveRight (hs : Row.isStitchAt s.row s.counters.phrase) (h : s.moveRight ≠ s) :
    s.moveRight.moveLeft = s := by
  have hrests := rests_of_isStitchAt hs
  cases hj : Row.stitchFrom? s.row (s.counters.phrase + 1) with
  | none => exact absurd (hrests.moveRight_of_none hj) h
  | some j =>
    have hback := Row.stitchBefore?_of_stitchFrom? hs hj
    rw [hrests.moveRight_of_some hj, moveLeft_of_some hback]
    rfl

theorem moveRight_moveLeft (hs : Row.isStitchAt s.row s.counters.phrase) (h : s.moveLeft ≠ s) :
    s.moveLeft.moveRight = s := by
  cases hj : Row.stitchBefore? s.row s.counters.phrase with
  | none => exact absurd (moveLeft_of_none hj) h
  | some j =>
    have hback := Row.stitchFrom?_of_stitchBefore? hs hj
    have hrests : (s.withCounters (s.counters.movePhrase j)).Rests :=
      rests_of_isStitchAt (Row.isStitchAt_of_stitchBefore? hj)
    rw [moveLeft_of_some hj, hrests.moveRight_of_some hback]
    rfl

/-- Without stitches the cursor does not move. -/
theorem Rests.moves_eq_self (hs : s.Rests) (h : s.row.any Fragment.isStitch = false) :
    s.moveRight = s ∧ s.moveLeft = s :=
  ⟨hs.moveRight_of_none (Row.stitchFrom?_eq_none h),
    moveLeft_of_none (Row.stitchBefore?_eq_none h)⟩

/-- Where the cursor is after some moves to the right. -/
def phraseAfter (s : State) (n : Nat) : Nat :=
  (s.actAll (List.replicate n .moveRight)).counters.phrase

/-- The cursor comes by the stitches behind it, one after the other. -/
theorem Rests.map_phraseAfter (hs : s.Rests) :
    let js := Row.stitchesFrom s.row (s.counters.phrase + 1)
    (List.range (js.length + 1)).map s.phraseAfter = s.counters.phrase :: js := by
  intro js
  generalize hjs : js = ks
  induction ks generalizing s with
  | nil => rfl
  | cons j ks ih =>
    obtain ⟨hj, hks⟩ := Row.stitchesFrom_of_cons hjs
    have hmoved := hs.moveRight_of_some hj
    have hnext : s.moveRight.Rests := hs.act .moveRight
    have hrest := ih hnext (by rw [hmoved]; exact hks)
    have hafter (n : Nat) : s.phraseAfter (n + 1) = s.moveRight.phraseAfter n := rfl
    rw [List.length_cons, List.range_succ_eq_map, List.map_cons, List.map_map]
    refine congrArg (s.counters.phrase :: ·) ?_
    rw [show s.phraseAfter ∘ Nat.succ = s.moveRight.phraseAfter from funext hafter, hrest, hmoved]
    rfl

/-- The cursor of a row, whatever the knitter does: it is on a stitch if the row has one, and else at
the start.  Moves go to the next stitch on either side, those that move undo each other, and moves to
the right take the cursor from the first stitch to the last. -/
theorem moves_ofRow (desc : Descriptions) (row args : List String) (acts : List Act) :
    let new := ofRow desc row args
    let s := new.actAll acts
    s.row = row ∧ s.Moves ∧
    (row.any Fragment.isStitch → Row.isStitchAt row s.counters.phrase ∧
      (s.moveRight ≠ s → s.moveRight.moveLeft = s) ∧
      (s.moveLeft ≠ s → s.moveLeft.moveRight = s)) ∧
    (row.any Fragment.isStitch = false → s.counters.phrase = 0 ∧ s.moveRight = s ∧ s.moveLeft = s) ∧
    (List.range (Row.stitches row).length).map new.phraseAfter = Row.stitches row := by
  intro new s
  have hrow : s.row = row := new.row_actAll acts
  have hrests : s.Rests := (rests_ofRow desc row args).actAll acts
  refine ⟨hrow, hrests.moves, fun h => ?_, fun h => ?_, ?_⟩
  · rw [← hrow] at h ⊢
    have hs := hrests.stitch h
    exact ⟨hs, moveLeft_moveRight hs, moveRight_moveLeft hs⟩
  · rw [← hrow] at h
    exact ⟨hrests.start h, hrests.moves_eq_self h⟩
  · have hstitches : Row.stitches row = Row.stitchesFrom row 0 := by
      rw [Row.stitches, Row.stitchesFrom, List.range_eq_range', Nat.sub_zero]
    rw [hstitches]
    cases hjs : Row.stitchesFrom row 0 with
    | nil => rfl
    | cons j js =>
      obtain ⟨hj, hrest⟩ := Row.stitchesFrom_of_cons hjs
      have hphrase : new.counters.phrase = j := by simp [new, ofRow, hj]
      have hvisits := (rests_ofRow desc row args).map_phraseAfter
      rw [hphrase, show Row.stitchesFrom new.row (j + 1) = js from hrest] at hvisits
      exact hvisits

/-- A row that begins and goes on with two braces; the cursor has passed over both closing ones. -/
theorem moves_ofRow_doubleBraces :
    let row := ["\x7b", "\x7b", "p", "\x7d", "\x7d 2", "k"]
    let new := ofRow .none row []
    let s := new.actAll [.moveLeft, .count .row .increment, .moveRight]
    row.any Fragment.isStitch ∧ s.counters = ⟨0, 1, 5⟩ ∧ Row.isStitchAt row 5 ∧
    s.moveLeft ≠ s ∧ s.moveLeft.moveRight = s ∧ Row.stitches row = [2, 5] ∧
    (List.range 2).map new.phraseAfter = [2, 5] := by
  intro row new s
  have hrow : row.any Fragment.isStitch := by decide
  have hleft : s.moveLeft ≠ s := by decide
  obtain ⟨-, -, hcursor, -, hvisits⟩ :=
    moves_ofRow .none row [] [.moveLeft, .count .row .increment, .moveRight]
  obtain ⟨hstitch, -, hback⟩ := hcursor hrow
  exact ⟨hrow, rfl, hstitch, hleft, hback hleft, by decide, hvisits⟩

end State
end KnittingPattern
