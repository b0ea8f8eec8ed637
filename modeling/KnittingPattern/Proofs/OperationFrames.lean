import KnittingPattern.Proofs.SessionRestarts

/-! # What operations on sessions change

A session is always at one of its states, unless there is none.  To go from state to state changes
no state; to move the cursor or to count changes one counter of the state the session is at.
Nothing else of a session ever changes.  Main theorem: `Session.run_frames`. -/

namespace KnittingPattern

/-- A state as it was before the knitter counted anything or moved the cursor. -/
def State.uncounted (s : State) : State := s.withCounters ⟨0, 0, 0⟩

@[simp] theorem State.uncounted_withCounters (s : State) (c : Counters) :
    (s.withCounters c).uncounted = s.uncounted := rfl

namespace Operation

/-- The operation goes to a state and changes none. -/
def navigates : Operation → Bool
  | next | previous | first | last | goto _ => true
  | moveLeft | moveRight | count _ _ => false

/-- How an operation may change the counters of the state the session is at: only the cursor, or
only the counter that is counted. -/
def Recounts : Operation → Counters → Counters → Prop
  | moveLeft, c, d | moveRight, c, d => d = ⟨c.stitch, c.row, d.phrase⟩
  | count .stitch _, c, d => d = ⟨d.stitch, c.row, c.phrase⟩
  | count .row _, c, d => d = ⟨c.stitch, d.row, c.phrase⟩
  | _, c, d => d = c

/-- What an operation on one session leaves alone in the other, which comes of it. -/
structure Frames (op : Operation) (s t : Session) : Prop where
  file : t.file = s.file
  states : t.states.map State.uncounted = s.states.map State.uncounted
  navigation : op.navigates → t.states = s.states
  index : op.navigates = false → t.index = s.index
  others : ∀ i, i ≠ s.index → t.states[i]? = s.states[i]?
  counters : ∀ a b, s.current? = some a → t.states[s.index]? = some b →
    op.Recounts a.counters b.counters

end Operation

namespace Session

variable {s : Session}

/-- A session that goes to another index has its states as they were. -/
theorem frames_moveTo {op : Operation} (hop : op.navigates) (s : Session) (index : Nat) :
    op.Frames s (s.moveTo index) where
  file := rfl
  states := rfl
  navigation _ := rfl
  index h := by simp [hop] at h
  others _ _ := rfl
  counters a b ha hb := by
    obtain rfl : a = b := Option.some.inj (ha.symm.trans hb)
    cases op <;> first | rfl | cases hop

theorem map_uncounted_modify (ss : List State) (i : Nat) (c : State → Counters) :
    (ss.modify i fun a => a.withCounters (c a)).map State.uncounted = ss.map State.uncounted := by
  induction ss generalizing i with
  | nil => simp
  | cons a ss ih => cases i <;> simp [ih]

/-- A session that changes the counters of the state it is at has all else as it was. -/
theorem frames_modifyCurrent {op : Operation} (hop : op.navigates = false) (s : Session)
    {c : State → Counters} (hc : ∀ a, op.Recounts a.counters (c a)) :
    op.Frames s (s.modifyCurrent fun a => a.withCounters (c a)) where
  file := rfl
  states := map_uncounted_modify s.states s.index c
  navigation h := by simp [hop] at h
  index _ := rfl
  others i hi := by simp [modifyCurrent, hi.symm]
  counters a b ha hb := by
    have hs : s.states[s.index]? = some a := ha
    obtain rfl : a.withCounters (c a) = b := by simpa [modifyCurrent, hs] using hb
    exact hc a

/-- What each operation leaves alone, in any session. -/
theorem frames_operate (s : Session) (op : Operation) : op.Frames s (s.operate op).2 := by
  cases op with
  | next =>
    by_cases h : s.index + 1 < s.size
    · rw [operate, next, if_pos h]
      exact frames_moveTo rfl s _
    · rw [operate, next, if_neg h]
      exact frames_moveTo rfl s s.index
  | previous => exact frames_moveTo rfl s _
  | first => exact frames_moveTo rfl s _
  | last => exact frames_moveTo rfl s _
  | goto index =>
    by_cases h : index < s.size
    · rw [operate, goto, if_pos h]
      exact frames_moveTo rfl s _
    · rw [operate, goto, if_neg h]
      exact frames_moveTo rfl s s.index
  | moveLeft => exact frames_modifyCurrent rfl s fun _ => rfl
  | moveRight => exact frames_modifyCurrent rfl s fun _ => rfl
  | count what how => cases what <;> exact frames_modifyCurrent rfl s fun _ => rfl

theorem Placed.run (h : s.Placed) (ops : List Operation) : (s.run ops).2.Placed := by
  induction ops generalizing s with
  | nil => exact h
  | cons op ops ih => exact ih (h.operate op)

theorem map_uncounted_run (s : Session) (ops : List Operation) :
    (s.run ops).2.states.map State.uncounted = s.states.map State.uncounted := by
  induction ops generalizing s with
  | nil => rfl
  | cons op ops ih => exact (ih (s.operate op).2).trans (s.frames_operate op).states

theorem Placed.current?_eq_none_iff (h : s.Placed) : s.current? = none ↔ s.states = [] := by
  rw [current?, List.getElem?_eq_none_iff, ← List.length_eq_zero_iff]
  unfold Placed size at h
  omega

/-- Whatever a session has been asked since it began, it is at one of its states, unless there is
none; its states are those of the beginning, but for their counters; it goes to the states that are
there and stays as it is if asked for another; and no operation changes more than it is about. -/
theorem run_frames (h : s.Begun) (file : Option String) (ops : List Operation) :
    let t := (run { s with file := file } ops).2
    (t.index < t.size ∨ t.index = 0 ∧ t.size = 0) ∧
    (t.current? = none ↔ t.states = []) ∧
    t.states.map State.uncounted = s.states.map State.uncounted ∧
    (∀ n, ((∃ a, (t.operate (.goto n)).1 = .ok a) ↔ n < t.size) ∧
      (n < t.size → t.operate (.goto n) = (.ok t.states[n]?, t.moveTo n)) ∧
      (¬ n < t.size → t.operate (.goto n) = (.error (.outOfRange n t.size), t))) ∧
    ∀ op : Operation, op.Frames t (t.operate op).2 := by
  intro t
  have hbegun : Placed { s with file := file } := h.placed
  have hplaced : t.Placed := hbegun.run ops
  refine ⟨?_, hplaced.current?_eq_none_iff, map_uncounted_run _ ops, fun n => ?_, t.frames_operate⟩
  · unfold Placed at hplaced
    omega
  · by_cases hn : n < t.size
    · have hgoto : t.operate (.goto n) = (.ok t.states[n]?, t.moveTo n) := by
        rw [operate, goto, if_pos hn]
        rfl
      simp [hgoto, hn]
    · have hgoto : t.operate (.goto n) = (.error (.outOfRange n t.size), t) := by
        rw [operate, goto, if_neg hn]
      simp [hgoto, hn]

/-- The snapshot of two rows says index 9, which becomes the last row; counting there and going on
leaves the first row alone. -/
theorem run_frames_twoRows :
    ofSnapshot? twoRowsSnapshot = some twoRows ∧
    let t := (run { twoRows with file := some "s.json" }
      [.goto 2, .count .row .increment, .next, .moveRight]).2
    t.index = 1 ∧ t.current? ≠ none ∧ t.states ≠ twoRows.states ∧
      t.states.map State.uncounted = twoRows.states.map State.uncounted ∧
      t.operate (.goto 2) = (.error (.outOfRange 2 2), t) ∧
      (t.operate (.count .stitch .reset)).2.states[0]? = twoRows.states[0]? := by
  have hread : ofSnapshot? twoRowsSnapshot = some twoRows := by decide +kernel
  refine ⟨hread, ?_⟩
  obtain ⟨-, hcurrent, hstates, hgoto, hframes⟩ := run_frames (.ofSnapshot hread) (some "s.json")
    [.goto 2, .count .row .increment, .next, .moveRight]
  have hothers := (hframes (.count .stitch .reset)).others 0 (by decide)
  exact ⟨by decide, mt hcurrent.mp (by decide), by decide, hstates, (hgoto 2).2.2 (by decide),
    hothers⟩

end Session
end KnittingPattern
