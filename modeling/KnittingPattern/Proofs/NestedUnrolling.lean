import KnittingPattern.Proofs.ScopeRecords

/-! # Unrolling nested scopes

Records are properly nested if every group and every row that starts also ends, and one that starts
within another ends within it.  Such records have a recursive unrolling: a group or row with a count
is its contents once for each round.  The unrolling of `State.ofRecords` does not recurse; it copies
states and shifts the rounds of the copies.  Both give the same states.  Main theorem:
`State.ofRecords_nested`. -/

namespace KnittingPattern

open Unrolling

/-- Properly nested records: content records, and scopes with such records in them. -/
inductive Nested where
  | nil
  | content (c : Content) (rest : Nested)
  | scope (kind : Scope) (desc args : List String) (body rest : Nested)

namespace Nested

/-- The records in their order. -/
def records : Nested → List Record
  | nil => []
  | content c rest => .content c :: rest.records
  | scope s desc args body rest =>
    s.opening desc args :: (body.records ++ s.ending :: rest.records)

/-- The descriptions behind the records: those of each kind that have lines replace the ones before,
in the order of the records. -/
def descAfter (d : Descriptions) : Nested → Descriptions
  | nil => d
  | content _ rest => rest.descAfter d
  | scope s desc _ body rest => rest.descAfter (body.descAfter (d.enter s desc))

/-- The recursive unrolling in given rounds.  A scope with a count is its body once for each round,
any other scope is its body once in the rounds around it.  Descriptions do not depend on rounds. -/
def unroll (rounds : Scope → Option Repeat) (d : Descriptions) : Nested → List State
  | nil => []
  | content c rest =>
    (if c.row.isEmpty then []
      else
        [{ State.ofRow d c.row c.args with
            groupRepeat := rounds .group, rowRepeat := rounds .row }]) ++
      rest.unroll rounds d
  | scope s desc args body rest =>
    (match repeatCount? args with
      | some n => (List.range n).flatMap fun i =>
          body.unroll (Function.update rounds s (some ⟨i + 1, n⟩)) (d.enter s desc)
      | none => body.unroll rounds (d.enter s desc)) ++
      rest.unroll rounds (body.descAfter (d.enter s desc))

/-- The rounds of a scope: those of its count, or one that is not counted. -/
def roundsOf : Option Nat → List (Option Repeat)
  | some n => (List.range n).map fun i => some ⟨i + 1, n⟩
  | none => [none]

/-- The recursive unrolling with the owners of the rounds. -/
def steps (levels : Scope → Level) (d : Descriptions) : Nested → List Step
  | nil => []
  | content c rest => Step.ofContent levels d c ++ rest.steps levels d
  | scope s desc args body rest =>
    ((roundsOf (repeatCount? args)).flatMap fun r =>
      body.steps (Function.update levels s ((levels s).enter r)) (d.enter s desc)) ++
      rest.steps levels (body.descAfter (d.enter s desc))

private theorem current_update (levels : Scope → Level) (s : Scope) (l : Level) :
    (fun t => (Function.update levels s l t).current) =
      Function.update (fun t => (levels t).current) s l.current := by
  funext t
  by_cases h : t = s
  · subst h; simp
  · simp [h]

/-- Without the owners, the steps are the states of the recursive unrolling. -/
theorem map_state_steps (x : Nested) (levels : Scope → Level) (d : Descriptions) :
    (x.steps levels d).map Step.state = x.unroll (fun s => (levels s).current) d := by
  induction x generalizing levels d with
  | nil => rfl
  | content c rest ih =>
    by_cases h : c.row.isEmpty
    · simp [steps, unroll, Step.ofContent, h, ih]
    · simp [steps, unroll, Step.ofContent, h, ih]
  | scope s desc args body rest ihb ihr =>
    simp only [steps, unroll, List.map_append, List.map_flatMap, ihb, ihr, current_update]
    cases repeatCount? args with
    | some n => simp [roundsOf, List.flatMap_map, Level.enter]
    | none => simp [roundsOf, Level.enter]

/-- A scope within others counts its own rounds, so rounds further out may pass before or after it
is entered. -/
private theorem later_enter (l : Level) (r : Option Repeat) {k : Nat} (hk : k < l.depth) (n : Nat) :
    (l.enter r).later k n = (l.later k n).enter r := by
  cases r with
  | some r => simp [Level.enter, Level.later, Nat.ne_of_gt hk]
  | none => rfl

private theorem later_ofContent (levels : Scope → Level) (d : Descriptions) (c : Content)
    (s : Scope) (k n : Nat) :
    (Step.ofContent levels d c).map (Step.later s k n) =
      Step.ofContent (Function.update levels s ((levels s).later k n)) d c := by
  by_cases h : c.row.isEmpty
  · simp [Step.ofContent, h]
  · cases s <;> simp [Step.ofContent, h, Step.later, Level.later, Function.update]

/-- Shifting the rounds of an open scope in all states of a body gives the body in a later round.
The scope is further out than the body, so no scope of the body has its depth. -/
theorem map_later_steps (x : Nested) (levels : Scope → Level) (d : Descriptions) (s : Scope)
    {k : Nat} (hk : k < (levels s).depth) (n : Nat) :
    (x.steps levels d).map (Step.later s k n) =
      x.steps (Function.update levels s ((levels s).later k n)) d := by
  induction x generalizing levels d with
  | nil => rfl
  | content c rest ih => simp only [steps, List.map_append, later_ofContent, ih levels d hk]
  | scope t desc args body rest ihb ihr =>
    simp only [steps, List.map_append, List.map_flatMap, ihr levels _ hk]
    congr 2
    funext r
    by_cases hst : s = t
    · subst hst
      have hd : k < (Function.update levels s ((levels s).enter r) s).depth := by
        cases r <;> simp [Level.enter] <;> omega
      rw [ihb _ _ hd]
      simp [later_enter _ r hk]
    · have hd : k < (Function.update levels t ((levels t).enter r) s).depth := by
        simpa [hst] using hk
      rw [ihb _ _ hd]
      simp [hst, Ne.symm hst, Function.update_comm hst]

/-- The first round of a scope, some rounds later. -/
private theorem later_enter_first (l : Level) (i n : Nat) :
    (l.enter (some ⟨1, n⟩)).later l.depth i = l.enter (some ⟨i + 1, n⟩) := by
  simp [Level.enter, Level.later, Nat.add_comm]

/-- All rounds of a body: the first one, and its copies. -/
private theorem steps_rounds (body : Nested) (levels : Scope → Level) (d : Descriptions) (s : Scope)
    {n : Nat} (hn : 1 ≤ n) :
    ((roundsOf (some n)).flatMap fun r =>
      body.steps (Function.update levels s ((levels s).enter r)) d) =
    body.steps (Function.update levels s ((levels s).enter (some ⟨1, n⟩))) d ++
      Step.laterRounds s (levels s).depth n
        (body.steps (Function.update levels s ((levels s).enter (some ⟨1, n⟩))) d) := by
  have hr : List.range n = 0 :: List.range' 1 (n - 1) := by
    obtain ⟨m, rfl⟩ : ∃ m, n = m + 1 := ⟨n - 1, by omega⟩
    rw [List.range_eq_range', List.range'_succ]
    rfl
  have hb : ∀ i, (body.steps (Function.update levels s ((levels s).enter (some ⟨1, n⟩))) d).map
      (Step.later s (levels s).depth i) =
      body.steps (Function.update levels s ((levels s).enter (some ⟨i + 1, n⟩))) d := by
    intro i
    rw [map_later_steps _ _ _ _ (by simp [Level.enter])]
    simp [later_enter_first]
  rw [roundsOf, hr, List.map_cons, List.flatMap_cons, List.flatMap_map,
    Step.laterRounds_eq]
  simp only [hb]

/-- Closing a scope behind its first round adds the rounds that are left. -/
private theorem repeatFrom_body (before : Array Step) (body : Nested) (levels : Scope → Level)
    (d : Descriptions) (s : Scope) (args : List String) (outer : Option Repeat)
    (owner : Option Nat) :
    Progress.repeatFrom
      (before ++ (body.steps (Function.update levels s
        ((levels s).enter ((repeatCount? args).map fun n => ⟨1, n⟩))) d).toArray)
      s (levels s).depth ⟨before.size, repeatCount? args, outer, owner⟩ =
    before ++ ((roundsOf (repeatCount? args)).flatMap fun r =>
      body.steps (Function.update levels s ((levels s).enter r)) d).toArray := by
  cases hc : repeatCount? args with
  | none => simp [Progress.repeatFrom, roundsOf]
  | some n =>
    apply Array.toList_inj.mp
    simp [Progress.repeatFrom, steps_rounds _ _ _ _ (one_le_of_repeatCount? hc)]

/-- The levels of open scopes. -/
private def levelsOf (scopes : Scope → Scopes) (s : Scope) : Level := (scopes s).level

private theorem levelsOf_enter (scopes : Scope → Scopes) (s : Scope) (start : Nat)
    (args : List String) :
    levelsOf (Function.update scopes s ((scopes s).enter start args)) =
      Function.update (levelsOf scopes) s
        ((levelsOf scopes s).enter ((repeatCount? args).map fun n => ⟨1, n⟩)) := by
  funext t
  by_cases h : t = s
  · subst h; simp [levelsOf, Scopes.level_enter]
  · simp [levelsOf, h]

/-- Reading nested records adds the steps of their unrolling; the open scopes are those before. -/
theorem readAll_records (x : Nested) (before : Array Step) (d : Descriptions)
    (scopes : Scope → Scopes) (i : Nat) (tail : List Record) :
    (Progress.of before d scopes).readAll i (x.records ++ tail) =
      (Progress.of (before ++ (x.steps (levelsOf scopes) d).toArray) (x.descAfter d)
        scopes).readAll (i + x.records.length) tail := by
  induction x generalizing before d scopes i tail with
  | nil => simp [records, steps, descAfter]
  | content c rest ih =>
    have hc := Progress.read_content before d scopes i c
    rw [records, List.cons_append, Progress.readAll_cons_ok _ (by simp) hc, ih]
    simp [steps, descAfter, Nat.add_assoc, Nat.add_comm 1]
    rfl
  | scope s desc args body rest ihb ihr =>
    have ho := Progress.read_opening before d scopes i s desc args
    have hi : i + (scope s desc args body rest).records.length =
        i + 1 + body.records.length + 1 + rest.records.length := by
      simp only [records, List.length_cons, List.length_append]
      omega
    rw [hi, records, List.cons_append, Progress.readAll_cons_ok _ (by simp) ho, List.append_assoc,
      ihb, List.cons_append, levelsOf_enter]
    have he := Progress.read_ending
      (before ++ (body.steps (Function.update (levelsOf scopes) s
        ((levelsOf scopes s).enter ((repeatCount? args).map fun n => ⟨1, n⟩)))
        (d.enter s desc)).toArray)
      (body.descAfter (d.enter s desc))
      (Function.update scopes s ((scopes s).enter before.size args))
      (i + 1 + body.records.length) s
    simp only [Function.update_self, Scopes.leave?_enter, Function.update_idem,
      Function.update_eq_self] at he
    rw [Progress.readAll_cons_ok _ (by simp) he,
      show (scopes s).frames.length = (levelsOf scopes s).depth from rfl, repeatFrom_body, ihr]
    simp [steps, descAfter]

end Nested

/-- The unrolling of properly nested records, whatever follows them, is the recursive one. -/
theorem State.ofRecords_nested (desc : List String) (x : Nested) (rest : List Record) :
    State.ofRecords (.startBlock desc :: (x.records ++ .endBlock :: rest)) =
      .ok (x.unroll (fun _ => none) ⟨"\n".intercalate desc, "", ""⟩) := by
  have hs : Progress.start.read 0 (.startBlock desc) =
      .ok (Progress.of #[] ⟨"\n".intercalate desc, "", ""⟩ fun _ => Scopes.none) := rfl
  rw [State.ofRecords, Progress.readAll_cons_ok _ (by simp) hs, Nested.readAll_records,
    Progress.readAll_endBlock]
  simp [Except.map, Progress.of, Nested.map_state_steps, Nested.levelsOf, Scopes.level,
    Scopes.none]

end KnittingPattern
