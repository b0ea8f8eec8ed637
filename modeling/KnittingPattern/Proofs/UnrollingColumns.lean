import KnittingPattern.Proofs.UnmatchedEnds

/-! # Unrolling in two columns

The states and the depths of the scopes that count their rounds can be kept in two lists beside each
other.  A scope that is repeated then copies a part of either list, and that part must exist.  It
always does: the lists grow together, and no open scope starts behind them.  Main theorem:
`State.ofRecords_inRange`. -/

namespace KnittingPattern
namespace Unrolling

/-- The depths of the scopes that count the rounds of a state. -/
structure Owners where
  group : Option Nat
  row : Option Nat

/-- Why columns cannot be read on. -/
inductive ColumnError where
  | unbalanced (e : Unbalanced)
  | outOfRange

/-- The elements from a start on, which must not be behind the end. -/
def slice? {α : Type} (xs : Array α) (start : Nat) : Except ColumnError (Array α) :=
  if start ≤ xs.size then .ok (xs.extract start xs.size) else .error .outOfRange

/-- The unrolling of the records read so far, with the owners of a state in a list of their own. -/
structure Columns where
  states : Array State
  owners : Array Owners
  desc : Descriptions
  groups : Scopes
  rows : Scopes

namespace Step

def owners (s : Step) : Owners := ⟨s.groupOwner, s.rowOwner⟩

/-- The copy of a state for a later round. -/
def copy (scope : Scope) (depth rounds : Nat) (s : State) (o : Owners) : State :=
  (later scope depth rounds ⟨s, o.group, o.row⟩).state

end Step

/-- No open scope starts behind so many states. -/
def Scopes.StartsBy (s : Scopes) (size : Nat) : Prop := ∀ f ∈ s.frames, f.start ≤ size

namespace Columns

def start : Columns := ⟨#[], #[], .none, .none, .none⟩

/-- The open scopes, by their kind. -/
def scopes (c : Columns) : Scope → Scopes
  | .group => c.groups
  | .row => c.rows

/-- The columns are equally long, and no open scope starts behind their end. -/
structure InRange (c : Columns) : Prop where
  size_owners : c.owners.size = c.states.size
  startsBy : ∀ s, (c.scopes s).StartsBy c.states.size

/-- The states from where a scope began come again for each further round, if there is one, and
their owners come with them. -/
def repeatFrom (states : Array State) (owners : Array Owners) (scope : Scope) (depth : Nat)
    (f : Frame) : Except ColumnError (Array State × Array Owners) :=
  match f.times.filter fun times => 2 ≤ times with
  | none => .ok (states, owners)
  | some times => do
    let body ← slice? states f.start
    let bodyOwners ← slice? owners f.start
    let rounds := List.range' 1 (times - 1)
    .ok (states ++ rounds.flatMap fun n =>
        List.zipWith (Step.copy scope depth n) body.toList bodyOwners.toList,
      owners ++ rounds.flatMap fun _ =>
        List.zipWith (fun _ o => o) body.toList bodyOwners.toList)

/-- Reads one record that does not end the block. -/
def read (c : Columns) (index : Nat) : Record → Except ColumnError Columns
  | .startBlock desc =>
    .ok ⟨c.states, c.owners, ⟨"\n".intercalate desc, c.desc.group, c.desc.row⟩, c.groups, c.rows⟩
  | .endBlock => .ok c
  | .startGroup desc args =>
    .ok ⟨c.states, c.owners, ⟨c.desc.block, Progress.describe c.desc.group desc, c.desc.row⟩,
      c.groups.enter c.states.size args, c.rows⟩
  | .endGroup =>
    match c.groups.leave? with
    | none => .error (.unbalanced ⟨.group, index⟩)
    | some (f, groups) => do
      let (states, owners) ← repeatFrom c.states c.owners .group groups.frames.length f
      .ok ⟨states, owners, c.desc, groups, c.rows⟩
  | .startRow desc args =>
    .ok ⟨c.states, c.owners, ⟨c.desc.block, c.desc.group, Progress.describe c.desc.row desc⟩,
      c.groups, c.rows.enter c.states.size args⟩
  | .endRow =>
    match c.rows.leave? with
    | none => .error (.unbalanced ⟨.row, index⟩)
    | some (f, rows) => do
      let (states, owners) ← repeatFrom c.states c.owners .row rows.frames.length f
      .ok ⟨states, owners, c.desc, c.groups, rows⟩
  | .content x =>
    if x.row.isEmpty then .ok c
    else
      let s := State.ofRow c.desc x.row x.args
      .ok ⟨c.states.push
          ⟨s.desc, c.groups.current, c.rows.current, s.counters, s.row, s.args, s.historyRow⟩,
        c.owners.push ⟨c.groups.owner, c.rows.owner⟩, c.desc, c.groups, c.rows⟩

/-- Reads records up to the first end of a block. -/
def readAll (c : Columns) (index : Nat) : List Record → Except ColumnError Columns
  | [] => .ok c
  | .endBlock :: _ => .ok c
  | r :: rs => do (← c.read index r).readAll (index + 1) rs

/-- Any record but the end of a block is read before those behind it. -/
theorem readAll_cons (c : Columns) (i : Nat) {r : Record} (rs : List Record) (hr : r ≠ .endBlock) :
    c.readAll i (r :: rs) = (c.read i r).bind fun c' => c'.readAll (i + 1) rs := by
  cases r <;> first | exact absurd rfl hr | rfl

/-- The columns of steps. -/
def ofProgress (p : Progress) : Columns :=
  ⟨p.steps.map Step.state, p.steps.map Step.owners, p.desc, p.groups, p.rows⟩

end Columns

namespace Scopes

variable {s t : Scopes} {f : Frame} {m n : Nat}

theorem StartsBy.mono (h : s.StartsBy m) (hmn : m ≤ n) : s.StartsBy n :=
  fun f hf => Nat.le_trans (h f hf) hmn

theorem StartsBy.enter (h : s.StartsBy n) (args : List String) : (s.enter n args).StartsBy n := by
  obtain ⟨f, hf, hframes⟩ :
      ∃ f : Frame, f.start = n ∧ (s.enter n args).frames = f :: s.frames := by
    unfold Scopes.enter
    cases repeatCount? args <;> exact ⟨_, rfl, rfl⟩
  rw [StartsBy, hframes, List.forall_mem_cons]
  exact ⟨Nat.le_of_eq hf, h⟩

theorem StartsBy.leave? (h : s.StartsBy n) (hl : s.leave? = some (f, t)) :
    f.start ≤ n ∧ t.StartsBy n := by
  rw [StartsBy, frames_of_leave? hl, List.forall_mem_cons] at h
  exact h

end Scopes

namespace Progress

/-- No open scope starts behind the steps. -/
def InRange (p : Progress) : Prop := ∀ s, (p.scopes s).StartsBy p.steps.size

variable {p q : Progress} {i : Nat} {r : Record} {rs : List Record}

theorem start_inRange : start.InRange := by
  intro s f hf
  cases s <;> cases hf

theorem size_le_repeatFrom (steps : Array Step) (s : Scope) (depth : Nat) (f : Frame) :
    steps.size ≤ (repeatFrom steps s depth f).size := by
  unfold repeatFrom
  cases f.times with
  | none => exact Nat.le_refl _
  | some times =>
    rw [← Array.length_toList, ← Array.length_toList, Array.toList_appendList, List.length_append]
    exact Nat.le_add_right _ _

theorem Transition.inRange (h : p.Transition r q) (hp : p.InRange) : q.InRange := by
  intro t
  cases h with
  | adds steps desc hr =>
    rw [scopes_of]
    exact (hp t).mono (by simp [of])
  | opens s desc args =>
    rw [scopes_of]
    by_cases hst : t = s
    · subst hst
      rw [Function.update_self]
      exact (hp t).enter args
    · rw [Function.update_of_ne hst]
      exact hp t
  | @closes s f outer hl =>
    have hsize := size_le_repeatFrom p.steps s outer.frames.length f
    rw [scopes_of]
    by_cases hst : t = s
    · subst hst
      rw [Function.update_self]
      exact ((hp t).leave? hl).2.mono hsize
    · rw [Function.update_of_ne hst]
      exact (hp t).mono hsize

theorem inRange_of_readAll (hp : p.InRange) (h : p.readAll i rs = .ok q) : q.InRange := by
  induction rs generalizing p i with
  | nil =>
    cases h
    exact hp
  | cons r rs ih =>
    by_cases hr : r = .endBlock
    · subst hr
      cases h
      exact hp
    · rw [readAll_cons i p rs hr] at h
      obtain ⟨p', hp', h⟩ := exists_of_bind_ok h
      exact ih ((Transition.of_read hp').inRange hp) h

end Progress

namespace Columns

variable {p : Progress} {i : Nat} {rs : List Record}

theorem scopes_ofProgress (p : Progress) : (ofProgress p).scopes = p.scopes := by
  funext s
  cases s <;> rfl

theorem ofProgress_start : ofProgress .start = start := by simp [ofProgress, Progress.start, start]

theorem inRange_ofProgress (hp : p.InRange) : (ofProgress p).InRange where
  size_owners := by simp [ofProgress]
  startsBy s := by
    rw [scopes_ofProgress]
    simpa [ofProgress] using hp s

theorem slice?_map {α β : Type} (g : α → β) {xs : Array α} {n : Nat} (h : n ≤ xs.size) :
    slice? (xs.map g) n = .ok ((xs.extract n xs.size).map g) := by
  simp [slice?, h]

theorem map_appendList {α β : Type} (g : α → β) (xs : Array α) (l : List α) :
    (xs ++ l).map g = xs.map g ++ l.map g := by
  apply Array.ext'
  simp

/-- The copies of the states of steps are the states of their later rounds. -/
theorem zipWith_copy (s : Scope) (depth n : Nat) (body : List Step) :
    List.zipWith (Step.copy s depth n) (body.map Step.state) (body.map Step.owners) =
      (body.map (Step.later s depth n)).map Step.state := by
  rw [List.zipWith_map, List.zipWith_self, List.map_map]
  rfl

/-- Steps have the same owners in every round. -/
theorem zipWith_owners (s : Scope) (depth n : Nat) (body : List Step) :
    List.zipWith (fun _ o => o) (body.map Step.state) (body.map Step.owners) =
      (body.map (Step.later s depth n)).map Step.owners := by
  rw [List.zipWith_map, List.zipWith_self, List.map_map]
  exact List.map_congr_left fun x _ => by cases s <;> rfl

/-- What is copied are the states and the owners of the later rounds. -/
theorem repeatFrom_map (steps : Array Step) (s : Scope) (depth : Nat) {f : Frame}
    (h : f.start ≤ steps.size) :
    repeatFrom (steps.map Step.state) (steps.map Step.owners) s depth f =
      .ok ((Progress.repeatFrom steps s depth f).map Step.state,
        (Progress.repeatFrom steps s depth f).map Step.owners) := by
  unfold repeatFrom Progress.repeatFrom
  cases f.times with
  | none => rfl
  | some times =>
    dsimp only
    rw [Option.filter_some, Step.laterRounds_eq, map_appendList, map_appendList, List.map_flatMap,
      List.map_flatMap]
    by_cases ht : 2 ≤ times
    · simp only [ht, decide_true, if_true]
      rw [slice?_map _ h, slice?_map _ h]
      have howners (n : Nat) := zipWith_owners s depth n (steps.extract f.start steps.size).toList
      refine congrArg Except.ok (Prod.ext ?_ ?_)
      · simp only [Array.toList_map, zipWith_copy]
      · simp only [Array.toList_map, ← howners]
    · have hnone : List.range' 1 (times - 1) = [] := by
        rw [show times - 1 = 0 by omega]
        rfl
      simp [ht, hnone]

/-- A record is read alike, and if it cannot be read the error is the same. -/
theorem read_ofProgress (hp : p.InRange) (i : Nat) (r : Record) :
    (ofProgress p).read i r = ((p.read i r).mapError .unbalanced).map ofProgress := by
  have hmap {s : Scope} {f : Frame} {t : Scopes} (hl : (p.scopes s).leave? = some (f, t)) :=
    repeatFrom_map p.steps s t.frames.length ((hp s).leave? hl).1
  cases r with
  | startBlock desc => rfl
  | endBlock => rfl
  | startGroup desc args => simp [ofProgress, read, Progress.read, Except.map, Except.mapError]
  | startRow desc args => simp [ofProgress, read, Progress.read, Except.map, Except.mapError]
  | endGroup =>
    unfold read Progress.read
    cases hl : p.groups.leave? with
    | none => simp [ofProgress, hl, Except.map, Except.mapError]
    | some x =>
      simp only [ofProgress, hl, hmap (s := .group) hl]
      rfl
  | endRow =>
    unfold read Progress.read
    cases hl : p.rows.leave? with
    | none => simp [ofProgress, hl, Except.map, Except.mapError]
    | some x =>
      simp only [ofProgress, hl, hmap (s := .row) hl]
      rfl
  | content x =>
    by_cases hx : x.row.isEmpty
    · simp [ofProgress, read, Progress.read, hx, Except.map, Except.mapError]
    · simp [ofProgress, read, Progress.read, hx, Except.map, Except.mapError, Step.owners]

theorem readAll_ofProgress (hp : p.InRange) (i : Nat) (rs : List Record) :
    (ofProgress p).readAll i rs = ((p.readAll i rs).mapError .unbalanced).map ofProgress := by
  induction rs generalizing p i with
  | nil => rfl
  | cons r rs ih =>
    by_cases hr : r = .endBlock
    · subst hr
      rfl
    · rw [readAll_cons _ i rs hr, Progress.readAll_cons i p rs hr, read_ofProgress hp]
      cases h : p.read i r with
      | error e => rfl
      | ok q => exact ih ((Progress.Transition.of_read h).inRange hp) (i + 1)

end Columns
end Unrolling

open Unrolling (Columns)
open Record (Unmatched FirstUnmatched)

namespace State

/-- Records unrolled in two columns. -/
def ofColumns (rs : List Record) : Except Unrolling.ColumnError (List State) :=
  (Columns.start.readAll 0 rs).map fun c => c.states.toList

/-- Both ways of unrolling give the same states and the same errors. -/
theorem ofColumns_eq (rs : List Record) : ofColumns rs = (ofRecords rs).mapError .unbalanced := by
  rw [ofColumns, ← Columns.ofProgress_start,
    Columns.readAll_ofProgress Unrolling.Progress.start_inRange, ofRecords]
  cases Unrolling.Progress.start.readAll 0 rs with
  | error e => rfl
  | ok p => simp [Except.map, Except.mapError, Columns.ofProgress]

/-- Whatever the records are, they can be unrolled unless one of them before the end of the block
ends a scope that has not been started, and the first of these is the error.  After any number of
them the columns are equally long and no open scope starts behind them, so no part that is copied is
out of range. -/
theorem ofRecords_inRange (rs : List Record) :
    (∀ e, ofRecords rs = .error e ↔ FirstUnmatched (Record.upToEnd rs) e) ∧
    ((∃ e, ofRecords rs = .error e) ↔ ∃ i s, Unmatched (Record.upToEnd rs) i s) ∧
    ofColumns rs = (ofRecords rs).mapError .unbalanced ∧ ofColumns rs ≠ .error .outOfRange ∧
    ∀ n c, Columns.start.readAll 0 (rs.take n) = .ok c → c.InRange := by
  refine ⟨fun e => ofRecords_eq_error_iff, exists_ofRecords_eq_error_iff, ofColumns_eq rs, ?_, ?_⟩
  · rw [ofColumns_eq]
    cases ofRecords rs <;> simp [Except.mapError]
  · intro n c hc
    rw [← Columns.ofProgress_start,
      Columns.readAll_ofProgress Unrolling.Progress.start_inRange] at hc
    cases hp : Unrolling.Progress.start.readAll 0 (rs.take n) with
    | error e =>
      rw [hp] at hc
      cases hc
    | ok p =>
      rw [hp] at hc
      cases hc
      exact Columns.inRange_ofProgress
        (Unrolling.Progress.inRange_of_readAll Unrolling.Progress.start_inRange hp)

end State

/-- A row and a group that overlap, and the end of a second row. -/
def Record.overlapping : List Record :=
  [.startRow [] ["2"], .content ⟨[], [], ["k"]⟩, .startGroup [] [], .endRow, .endRow, .endGroup,
    .endBlock, .endGroup]

theorem State.ofRecords_inRange_overlapping :
    FirstUnmatched (Record.upToEnd Record.overlapping) ⟨.row, 4⟩ ∧
    ∃ c, Columns.start.readAll 0 (Record.overlapping.take 4) = .ok c ∧ c.states.size = 2 ∧
      c.InRange := by
  obtain ⟨herror, -, -, -, hrange⟩ := State.ofRecords_inRange Record.overlapping
  have hread : ∃ c, Columns.start.readAll 0 (Record.overlapping.take 4) = .ok c ∧
      c.states.size = 2 := ⟨_, rfl, rfl⟩
  obtain ⟨c, hc, hsize⟩ := hread
  exact ⟨(herror _).mp rfl, c, hc, hsize, hrange 4 c hc⟩

end KnittingPattern
