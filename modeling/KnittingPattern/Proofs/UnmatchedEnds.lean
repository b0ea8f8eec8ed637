import KnittingPattern.Proofs.RecordGrammar
import Mathlib.Data.List.TakeWhile

/-! # Ends without a start

Groups and rows are counted apart, so they may overlap in any way.  Records cannot be unrolled if
one of them ends a scope when no scope of its kind is open, and the first such record is the error.
Main theorem: `State.ofRecords_eq_error_iff`. -/

namespace KnittingPattern

namespace Record

/-- The record starts a scope of a kind. -/
def starts (s : Scope) : Record → Bool
  | .startGroup _ _ => s = .group
  | .startRow _ _ => s = .row
  | _ => false

/-- The record ends a scope of a kind. -/
def ends (s : Scope) : Record → Bool
  | .endGroup => s = .group
  | .endRow => s = .row
  | _ => false

/-- The record at an index ends a scope, and among the records before it no more scopes of its kind
start than end. -/
def Unmatched (rs : List Record) (i : Nat) (s : Scope) : Prop :=
  rs[i]? = some s.ending ∧ (rs.take i).countP (starts s) ≤ (rs.take i).countP (ends s)

/-- The first record that ends a scope without a start, with its index. -/
def FirstUnmatched (rs : List Record) (e : Unbalanced) : Prop :=
  Unmatched rs e.index e.scope ∧ ∀ i s, Unmatched rs i s → e.index ≤ i

/-- The records before the first end of a block. -/
def upToEnd (rs : List Record) : List Record := rs.takeWhile (· ≠ .endBlock)

theorem endBlock_notMem_upToEnd (rs : List Record) : .endBlock ∉ upToEnd rs :=
  fun hm => by simpa using List.mem_takeWhile_imp hm

variable (s t : Scope) (desc args : List String)

theorem starts_opening : (s.opening desc args).starts t = decide (t = s) := by
  cases s <;> rfl

theorem ends_opening : (s.opening desc args).ends t = false := by
  cases s <;> rfl

theorem starts_ending : s.ending.starts t = false := by
  cases s <;> rfl

theorem ends_ending : s.ending.ends t = decide (t = s) := by
  cases s <;> rfl

variable {s t}

theorem eq_of_ending_eq (h : s.ending = t.ending) : s = t := by
  cases s <;> cases t <;> first | rfl | cases h

theorem FirstUnmatched.unique {rs : List Record} {e e' : Unbalanced} (h : FirstUnmatched rs e)
    (h' : FirstUnmatched rs e') : e = e' := by
  obtain ⟨s, i⟩ := e
  obtain ⟨s', i'⟩ := e'
  obtain rfl : i = i' := Nat.le_antisymm (h.2 _ _ h'.1) (h'.2 _ _ h.1)
  obtain rfl : s = s' := eq_of_ending_eq (Option.some.inj (h.1.1.symm.trans h'.1.1))
  rfl

end Record

open Record (Unmatched FirstUnmatched)

namespace Unrolling

namespace Scopes

theorem length_enter (s : Scopes) (start : Nat) (args : List String) :
    (s.enter start args).frames.length = s.frames.length + 1 := by
  unfold enter
  cases repeatCount? args <;> rfl

theorem frames_of_leave? {s t : Scopes} {f : Frame} (h : s.leave? = some (f, t)) :
    s.frames = f :: t.frames := by
  unfold leave? at h
  split at h
  · cases h
  · cases h
    assumption

theorem frames_of_leave?_none {s : Scopes} (h : s.leave? = Option.none) : s.frames = [] := by
  unfold leave? at h
  split at h
  · assumption
  · cases h

end Scopes

namespace Progress

/-- The open scopes, by their kind. -/
def scopes (p : Progress) : Scope → Scopes
  | .group => p.groups
  | .row => p.rows

/-- How many scopes of a kind are open. -/
def depth (p : Progress) (s : Scope) : Nat := (p.scopes s).frames.length

variable {p q : Progress} {i : Nat} {r : Record} {e : Unbalanced}

theorem scopes_of (steps : Array Step) (d : Descriptions) (scopes : Scope → Scopes) :
    (of steps d scopes).scopes = scopes := by
  funext s
  cases s <;> rfl

/-- What reading a record may come to: steps are added and the scopes stay, a scope is opened, or
the innermost scope of its kind is closed and repeated. -/
inductive Transition (p : Progress) : Record → Progress → Prop
  | adds {r : Record} (steps : Array Step) (desc : Descriptions)
    (hr : ∀ s, r.starts s = false ∧ r.ends s = false) :
    Transition p r (of (p.steps ++ steps) desc p.scopes)
  | opens (s : Scope) (desc args : List String) :
    Transition p (s.opening desc args) (of p.steps (p.desc.enter s desc)
      (Function.update p.scopes s ((p.scopes s).enter p.steps.size args)))
  | closes (s : Scope) {f : Frame} {outer : Scopes} (h : (p.scopes s).leave? = some (f, outer)) :
    Transition p s.ending (of (repeatFrom p.steps s outer.frames.length f) p.desc
      (Function.update p.scopes s outer))

/-- A record is read, unless it ends a scope and none of its kind is open. -/
theorem read_cases (p : Progress) (i : Nat) (r : Record) :
    (∃ q, p.read i r = .ok q ∧ p.Transition r q) ∨
      ∃ s, r = s.ending ∧ p.depth s = 0 ∧ p.read i r = .error ⟨s, i⟩ := by
  have hopening (s : Scope) (desc args : List String) :
      ∃ q, p.read i (s.opening desc args) = .ok q ∧ p.Transition (s.opening desc args) q :=
    ⟨_, read_opening p.steps p.desc p.scopes i s desc args, .opens s desc args⟩
  have hending (s : Scope) : (∃ q, p.read i s.ending = .ok q ∧ p.Transition s.ending q) ∨
      p.depth s = 0 ∧ p.read i s.ending = .error ⟨s, i⟩ := by
    have hread := read_ending p.steps p.desc p.scopes i s
    cases hl : (p.scopes s).leave? with
    | none =>
      rw [hl] at hread
      exact .inr ⟨congrArg List.length (Scopes.frames_of_leave?_none hl), hread⟩
    | some x =>
      obtain ⟨f, outer⟩ := x
      rw [hl] at hread
      exact .inl ⟨_, hread, .closes s hl⟩
  have hadds (steps : Array Step) (desc : Descriptions)
      (hr : ∀ s, r.starts s = false ∧ r.ends s = false)
      (h : p.read i r = .ok (of (p.steps ++ steps) desc p.scopes)) :
      ∃ q, p.read i r = .ok q ∧ p.Transition r q :=
    ⟨_, h, .adds steps desc hr⟩
  cases r with
  | startBlock desc =>
    refine .inl (hadds #[] ⟨"\n".intercalate desc, p.desc.group, p.desc.row⟩
      (fun _ => ⟨rfl, rfl⟩) ?_)
    rw [Array.append_empty]
    rfl
  | endBlock =>
    refine .inl (hadds #[] p.desc (fun _ => ⟨rfl, rfl⟩) ?_)
    rw [Array.append_empty]
    rfl
  | startGroup desc args => exact .inl (hopening .group desc args)
  | startRow desc args => exact .inl (hopening .row desc args)
  | endGroup => exact (hending .group).imp_right fun h => ⟨.group, rfl, h⟩
  | endRow => exact (hending .row).imp_right fun h => ⟨.row, rfl, h⟩
  | content c =>
    exact .inl (hadds _ p.desc (fun _ => ⟨rfl, rfl⟩) (read_content p.steps p.desc p.scopes i c))

theorem Transition.of_read (h : p.read i r = .ok q) : p.Transition r q := by
  obtain ⟨q', hq, hr⟩ | ⟨s, -, -, hs⟩ := p.read_cases i r
  · cases hq.symm.trans h
    exact hr
  · cases hs.symm.trans h

/-- What is read opens and closes the scopes that it starts and ends. -/
theorem Transition.depth (h : p.Transition r q) (s : Scope) :
    q.depth s + (if r.ends s then 1 else 0) = p.depth s + if r.starts s then 1 else 0 := by
  cases h with
  | adds steps desc hr => simp [Progress.depth, scopes_of, hr]
  | opens t desc args =>
    simp only [Progress.depth, scopes_of, Record.starts_opening, Record.ends_opening]
    by_cases hst : s = t
    · subst hst
      simp [Scopes.length_enter]
    · simp [hst]
  | @closes t f outer hl =>
    simp only [Progress.depth, scopes_of, Record.starts_ending, Record.ends_ending]
    by_cases hst : s = t
    · subst hst
      simp [Scopes.frames_of_leave? hl]
    · simp [hst]

variable {rs pre post : List Record}

theorem readAll_append (hb : .endBlock ∉ pre) :
    p.readAll i (pre ++ post) =
      (p.readAll i pre).bind fun q => q.readAll (i + pre.length) post := by
  induction pre generalizing p i with
  | nil => rfl
  | cons r pre ih =>
    obtain ⟨hr, hb⟩ : ¬ .endBlock = r ∧ .endBlock ∉ pre := by simpa using hb
    rw [List.cons_append, readAll_cons i p _ (Ne.symm hr), readAll_cons i p _ (Ne.symm hr)]
    cases p.read i r with
    | error e => rfl
    | ok q =>
      rw [List.length_cons, ← Nat.add_assoc, Nat.add_right_comm]
      exact ih hb

theorem readAll_upToEnd : p.readAll i (Record.upToEnd rs) = p.readAll i rs := by
  induction rs generalizing p i with
  | nil => rfl
  | cons r rs ih =>
    by_cases hr : r = .endBlock
    · subst hr
      rfl
    · have hcons : Record.upToEnd (r :: rs) = r :: Record.upToEnd rs := by
        simp [Record.upToEnd, hr]
      rw [hcons, readAll_cons i p _ hr, readAll_cons i p _ hr]
      exact congrArg _ (funext fun q => ih)

/-- Behind records that are read, those scopes are open that start among them and do not end. -/
theorem depth_readAll (hb : .endBlock ∉ rs) (h : p.readAll i rs = .ok q) (s : Scope) :
    q.depth s + rs.countP (Record.ends s) = p.depth s + rs.countP (Record.starts s) := by
  induction rs generalizing p i with
  | nil =>
    cases h
    rfl
  | cons r rs ih =>
    obtain ⟨hr, hb⟩ : ¬ .endBlock = r ∧ .endBlock ∉ rs := by simpa using hb
    rw [readAll_cons i p rs (Ne.symm hr)] at h
    obtain ⟨p', hp', h⟩ := exists_of_bind_ok h
    have hstep := (Transition.of_read hp').depth s
    have hrest := ih hb h
    simp only [List.countP_cons]
    omega

/-- Records that are read have an open scope for each end of one. -/
theorem not_unmatched_of_readAll (hb : .endBlock ∉ rs) (h : start.readAll 0 rs = .ok q) (k : Nat)
    (s : Scope) : ¬ Unmatched rs k s := by
  rintro ⟨hk, hcount⟩
  obtain ⟨hlt, hk⟩ := List.getElem?_eq_some_iff.mp hk
  have hrs : rs = rs.take k ++ s.ending :: rs.drop (k + 1) := by
    rw [← hk, ← List.drop_eq_getElem_cons hlt, List.take_append_drop]
  have hbk : .endBlock ∉ rs.take k := fun hm => hb (List.mem_of_mem_take hm)
  rw [hrs, readAll_append hbk] at h
  obtain ⟨p, hp, h⟩ := exists_of_bind_ok h
  rw [readAll_cons _ p _ s.ending_ne_endBlock] at h
  obtain ⟨p', hp', -⟩ := exists_of_bind_ok h
  have hdepth := depth_readAll hbk hp s
  have hend := (Transition.of_read hp').depth s
  have hzero : start.depth s = 0 := by cases s <;> rfl
  simp only [Record.ends_ending, Record.starts_ending, decide_true, if_true, Bool.false_eq_true,
    if_false] at hend
  omega

/-- The record that cannot be read ends a scope, and behind the records before it none of its kind
is open. -/
theorem exists_of_readAll_error (hb : .endBlock ∉ rs) (h : p.readAll i rs = .error e) :
    ∃ pre post q, rs = pre ++ e.scope.ending :: post ∧ p.readAll i pre = .ok q ∧
      q.depth e.scope = 0 ∧ e.index = i + pre.length := by
  induction rs generalizing p i with
  | nil => cases h
  | cons r rs ih =>
    obtain ⟨hr, hb⟩ : ¬ .endBlock = r ∧ .endBlock ∉ rs := by simpa using hb
    rw [readAll_cons i p rs (Ne.symm hr)] at h
    obtain ⟨p', hp', -⟩ | ⟨s, rfl, hs, he⟩ := p.read_cases i r
    · rw [hp'] at h
      obtain ⟨pre, post, q, rfl, hpre, hq, hi⟩ := ih hb h
      refine ⟨r :: pre, post, q, rfl, ?_, hq, ?_⟩
      · rw [readAll_cons_ok pre (Ne.symm hr) hp']
        exact hpre
      · rw [hi, List.length_cons]
        omega
    · rw [he] at h
      cases h
      exact ⟨[], rs, p, rfl, rfl, hs, rfl⟩

/-- The first end without a start is the error. -/
theorem firstUnmatched_of_readAll (hb : .endBlock ∉ rs) (h : start.readAll 0 rs = .error e) :
    FirstUnmatched rs e := by
  obtain ⟨pre, post, q, rfl, hpre, hq, hi⟩ := exists_of_readAll_error hb h
  rw [Nat.zero_add] at hi
  have hbpre : .endBlock ∉ pre := fun hm => hb (List.mem_append_left _ hm)
  have hdepth := depth_readAll hbpre hpre e.scope
  refine ⟨⟨by simp [hi], ?_⟩, fun k s hk => ?_⟩
  · rw [hi, List.take_left]
    omega
  · by_contra hlt
    have hlt : k < pre.length := by omega
    refine not_unmatched_of_readAll hbpre hpre k s ⟨?_, ?_⟩
    · rw [← hk.1, List.getElem?_append_left hlt]
    · rw [← List.take_append_of_le_length (Nat.le_of_lt hlt)]
      exact hk.2

end Progress
end Unrolling

open Unrolling (Progress)

namespace State

theorem ofRecords_upToEnd (rs : List Record) : ofRecords rs =
    (Progress.start.readAll 0 (Record.upToEnd rs)).map fun p => p.steps.toList.map (·.state) := by
  rw [Progress.readAll_upToEnd]
  rfl

/-- Records that cannot be unrolled are told by the first of them that ends a scope that has not
been started; what follows the end of a block does not count. -/
theorem ofRecords_eq_error_iff {rs : List Record} {e : Unbalanced} :
    ofRecords rs = .error e ↔ FirstUnmatched (Record.upToEnd rs) e := by
  have hb := Record.endBlock_notMem_upToEnd rs
  rw [ofRecords_upToEnd]
  cases h : Progress.start.readAll 0 (Record.upToEnd rs) with
  | error e' =>
    have he' := Progress.firstUnmatched_of_readAll hb h
    constructor
    · intro he
      cases he
      exact he'
    · exact fun he => congrArg Except.error (he'.unique he)
  | ok p =>
    constructor
    · intro he
      cases he
    · exact fun he => absurd he.1 (Progress.not_unmatched_of_readAll hb h e.index e.scope)

/-- If any record ends a scope that has not been started, there is a first one that does. -/
theorem exists_ofRecords_eq_error_iff {rs : List Record} :
    (∃ e, ofRecords rs = .error e) ↔ ∃ i s, Unmatched (Record.upToEnd rs) i s := by
  constructor
  · rintro ⟨e, he⟩
    exact ⟨e.index, e.scope, (ofRecords_eq_error_iff.mp he).1⟩
  · rintro ⟨i, s, hi⟩
    cases h : Progress.start.readAll 0 (Record.upToEnd rs) with
    | error e => exact ⟨e, (ofRecords_upToEnd rs).trans (h ▸ rfl)⟩
    | ok p =>
      have hb := Record.endBlock_notMem_upToEnd rs
      exact absurd hi (Progress.not_unmatched_of_readAll hb h i s)

end State
end KnittingPattern
