import KnittingPattern.Proofs.RowTotals
import KnittingPattern.Proofs.SnapshotReading

/-! # The numbers of states

The rounds of a repeat count up to a number of 64 bits, nothing is counted yet, and the cursor is
within the row.  So all numbers of the states that a pattern comes to have 64 bits.  Main theorem:
`Compilation.fits_states`. -/

namespace KnittingPattern

open Unrolling

theorem Decimal.lt_of_nat64? {cs : List Char} {n : Nat} (h : nat64? cs = some n) : n < 2 ^ 64 := by
  obtain ⟨m, -, h⟩ := Option.bind_eq_some_iff.mp h
  split at h
  case isTrue hm =>
    cases h
    exact hm
  case isFalse => cases h

theorem lt_of_repeatCount? {args : List String} {n : Nat} (h : repeatCount? args = some n) :
    n < 2 ^ 64 := by
  unfold repeatCount? at h
  split at h
  · exact Decimal.lt_of_nat64? (Option.filter_eq_some_iff.mp h).1
  · cases h

/-- The rounds of a state have 64 bits, and nothing has been done to it. -/
structure State.Fresh (s : State) : Prop where
  group : s.groupRepeat.all Repeat.fits
  row : s.rowRepeat.all Repeat.fits
  counters : s.counters = ⟨0, 0, (Row.stitchFrom? s.row 0).getD 0⟩

theorem Row.stitchFrom?_lt {row : List String} {i n : Nat} (h : stitchFrom? row n = some i) :
    i < row.length := by
  have hi := List.mem_of_find?_eq_some h
  simp only [List.mem_range'_1] at hi
  omega

theorem State.Fresh.fits {s : State} (h : s.Fresh) (hrow : s.row.length ≤ 2 ^ 64) : s.fits := by
  have hphrase : (Row.stitchFrom? s.row 0).getD 0 < 2 ^ 64 := by
    cases hi : Row.stitchFrom? s.row 0 with
    | none => decide
    | some i => exact (Row.stitchFrom?_lt hi).trans_le hrow
  simp [State.fits, h.group, h.row, h.counters, Counters.fits, hphrase, -Nat.reducePow]

namespace Nested

/-- The rounds around nested records and those of the scopes within them have 64 bits. -/
theorem fresh_of_mem_steps (x : Nested) {levels : Scope → Level}
    (h : ∀ s, (levels s).current.all Repeat.fits) {d : Descriptions} {st : Step}
    (hst : st ∈ x.steps levels d) : st.state.Fresh := by
  induction x generalizing levels d with
  | nil => cases hst
  | content c rest ih =>
    rcases List.mem_append.mp hst with hst | hst
    · unfold Step.ofContent at hst
      split at hst
      · cases hst
      · obtain rfl := List.mem_singleton.mp hst
        exact ⟨h .group, h .row, rfl⟩
    · exact ih h hst
  | scope s desc args body rest ihb ihr =>
    rcases List.mem_append.mp hst with hst | hst
    · obtain ⟨r, hr, hst⟩ := List.mem_flatMap.mp hst
      refine ihb (fun t => ?_) hst
      have hfits : r.all Repeat.fits := by
        unfold roundsOf at hr
        cases hn : repeatCount? args with
        | none =>
          rw [hn] at hr
          obtain rfl := List.mem_singleton.mp hr
          rfl
        | some n =>
          rw [hn] at hr
          obtain ⟨i, hi, rfl⟩ := List.mem_map.mp hr
          have hlt := lt_of_repeatCount? hn
          rw [List.mem_range] at hi
          simp only [Option.all_some, Repeat.fits, Bool.and_eq_true, decide_eq_true_eq]
          omega
      by_cases hts : t = s
      · subst hts
        rw [Function.update_self]
        cases r with
        | none => exact h t
        | some r => exact hfits
      · rw [Function.update_of_ne hts]
        exact h t
    · exact ihr h hst

end Nested

namespace Unrolling

/-- Opening a scope starts rounds of 64 bits, or leaves those around it. -/
theorem all_fits_enter {s : Scopes} (h : s.current.all Repeat.fits) (start : Nat)
    (args : List String) : (s.enter start args).current.all Repeat.fits := by
  unfold Scopes.enter
  cases hn : repeatCount? args with
  | none => exact h
  | some n =>
    have hlt := lt_of_repeatCount? hn
    simp only [Option.all_some, Repeat.fits, Bool.and_eq_true, decide_eq_true_eq]
    omega

theorem exists_fresh_of_cut {pre : List Record} (h : Record.Cut pre) (before : Array Step)
    (d : Descriptions) (scopes : Scope → Scopes) (i : Nat)
    (hbefore : ∀ st ∈ before, st.state.Fresh)
    (hscopes : ∀ s, (scopes s).current.all Repeat.fits) (tail : List Record) :
    ∃ p, (Progress.of before d scopes).readAll i (pre ++ .endBlock :: tail) = .ok p ∧
      ∀ st ∈ p.steps, st.state.Fresh := by
  have hsteps (x : Nested) (d : Descriptions) (levels : Scope → Level) (before : Array Step)
      (hbefore : ∀ st ∈ before, st.state.Fresh) (h : ∀ s, (levels s).current.all Repeat.fits) :
      ∀ st ∈ before ++ (x.steps levels d).toArray, st.state.Fresh := by
    intro st hst
    rcases Array.mem_append.mp hst with hst | hst
    · exact hbefore st hst
    · exact x.fresh_of_mem_steps h (by simpa using hst)
  induction h generalizing before d scopes i with
  | whole x =>
    exact ⟨_, (x.readAll_records before d scopes i _).trans (Progress.readAll_endBlock _ _ _),
      hsteps x d (fun t => (scopes t).level) before hbefore hscopes⟩
  | group x desc args h ih =>
    have henter (start : Nat) (t : Scope) :
        (Function.update scopes .group ((scopes .group).enter start args) t).current.all
          Repeat.fits := by
      cases t with
      | group => exact all_fits_enter (hscopes .group) start args
      | row => exact hscopes .row
    obtain ⟨p, hp, hfresh⟩ := ih _ ((x.descAfter d).enter .group desc) _ _
      (hsteps x d (fun t => (scopes t).level) before hbefore hscopes) (henter _)
    refine ⟨p, ?_, hfresh⟩
    rw [List.append_assoc, x.readAll_records, List.cons_append]
    exact (Progress.readAll_cons_ok _ (by simp)
      (Progress.read_opening _ _ _ _ .group desc args)).trans hp
  | block x desc h ih =>
    obtain ⟨p, hp, hfresh⟩ :=
      ih _ _ _ _ (hsteps x d (fun t => (scopes t).level) before hbefore hscopes) hscopes
    refine ⟨p, ?_, hfresh⟩
    rw [List.append_assoc, x.readAll_records, List.cons_append]
    exact (Progress.readAll_cons_ok _ (by simp) (Progress.read_startBlock _ _ _ _ desc)).trans hp

end Unrolling

theorem State.fresh_of_ofRecords {rs : List Record} (h : Record.OfBlock rs) {ss : List State}
    (hss : ofRecords rs = .ok ss) {s : State} (hs : s ∈ ss) : s.Fresh := by
  obtain ⟨desc, pre, tail, rfl, hpre, -⟩ := h.exists_cut
  have hstart := Progress.read_startBlock #[] .none (fun _ => .none) 0 desc
  obtain ⟨p, hp, hfresh⟩ :=
    exists_fresh_of_cut hpre #[] _ (fun _ => .none) 1 (by simp) (fun _ => rfl) tail
  have hread := (Progress.readAll_cons_ok _ (by simp) hstart).trans hp
  obtain rfl := Except.ok.inj ((congrArg (Except.map _) hread).symm.trans hss)
  obtain ⟨st, hst, rfl⟩ := List.mem_map.mp hs
  exact hfresh st (by simpa using hst)

/-- The states of a pattern have numbers of 64 bits, if no row has more fragments than a cursor can
tell apart. -/
theorem Compilation.fits_states {b : Block} {ss : List State} (h : states b = .ok ss)
    (hrows : ∀ s ∈ ss, s.row.length ≤ 2 ^ 64) : ss.all State.fits := by
  obtain ⟨rs, hrs, hss⟩ := states_eq_ok_iff.mp h
  refine List.all_eq_true.mpr fun s hs => ?_
  exact (State.fresh_of_ofRecords (b.recordsUnder_ofBlock _ hrs) hss hs).fits (hrows s hs)

end KnittingPattern
