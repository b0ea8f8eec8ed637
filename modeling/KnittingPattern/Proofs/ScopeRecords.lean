import KnittingPattern.State.Unrolling
import Mathlib.Logic.Function.Basic

/-! # Starts and ends of scopes

Groups and rows are unrolled alike.  The records that start and end them, and what the unrolling
does when it reads one, are stated here once for both kinds of scope. -/

namespace KnittingPattern

namespace Scope

/-- The record that starts a scope. -/
def opening : Scope → List String → List String → Record
  | group => .startGroup
  | row => .startRow

/-- The record that ends a scope. -/
def ending : Scope → Record
  | group => .endGroup
  | row => .endRow

@[simp] theorem opening_ne_endBlock (s : Scope) (desc args : List String) :
    s.opening desc args ≠ .endBlock := by
  cases s <;> simp [opening]

@[simp] theorem ending_ne_endBlock (s : Scope) : s.ending ≠ .endBlock := by
  cases s <;> simp [ending]

end Scope

/-- The descriptions after the start of a scope: lines take the place of the description of its
kind. -/
def Descriptions.enter (d : Descriptions) (scope : Scope) (lines : List String) : Descriptions :=
  if lines.isEmpty then d
  else
    match scope with
    | .group => ⟨d.block, "\n".intercalate lines, d.row⟩
    | .row => ⟨d.block, d.group, "\n".intercalate lines⟩

theorem one_le_of_repeatCount? {args : List String} {n : Nat} (h : repeatCount? args = some n) :
    1 ≤ n := by
  unfold repeatCount? at h
  split at h
  · simpa using (Option.filter_eq_some_iff.mp h).2
  · simp at h

namespace Unrolling

/-- What the states in a scope see of the scopes of its kind: how many are open, the round in effect
and the depth of the scope that counts it. -/
structure Level where
  depth : Nat
  current : Option Repeat
  owner : Option Nat

namespace Level

/-- The level within one more scope, which may have rounds of its own. -/
def enter (l : Level) : Option Repeat → Level
  | some r => ⟨l.depth + 1, some r, some l.depth⟩
  | none => ⟨l.depth + 1, l.current, l.owner⟩

/-- The level some rounds later, if the scope at this depth counts them. -/
def later (depth rounds : Nat) (l : Level) : Level :=
  ⟨l.depth, if l.owner = some depth then l.current.map fun r => ⟨r.current + rounds, r.max⟩
    else l.current, l.owner⟩

end Level

def Scopes.level (s : Scopes) : Level := ⟨s.frames.length, s.current, s.owner⟩

/-- Opening a scope enters its first round. -/
theorem Scopes.level_enter (s : Scopes) (start : Nat) (args : List String) :
    (s.enter start args).level = s.level.enter ((repeatCount? args).map fun n => ⟨1, n⟩) := by
  unfold enter
  cases repeatCount? args <;> rfl

/-- An open scope is the one that closes next, and the scopes around it are left. -/
theorem Scopes.leave?_enter (s : Scopes) (start : Nat) (args : List String) :
    (s.enter start args).leave? = some (⟨start, repeatCount? args, s.current, s.owner⟩, s) := by
  unfold enter
  cases repeatCount? args <;> rfl

/-- The step of a content record; without a row it has none. -/
def Step.ofContent (levels : Scope → Level) (d : Descriptions) (c : Content) : List Step :=
  if c.row.isEmpty then []
  else
    [⟨{ State.ofRow d c.row c.args with
        groupRepeat := (levels .group).current, rowRepeat := (levels .row).current },
      (levels .group).owner, (levels .row).owner⟩]

/-- The rounds after the first one come one behind the other. -/
theorem Step.laterRounds_eq (s : Scope) (depth times : Nat) (body : List Step) :
    laterRounds s depth times body =
      (List.range' 1 (times - 1)).flatMap fun n => body.map (later s depth n) := by
  cases body with
  | nil => simp [laterRounds]
  | cons b body => simp [laterRounds]

namespace Progress

/-- Progress with its open scopes given by their kind. -/
def of (steps : Array Step) (desc : Descriptions) (scopes : Scope → Scopes) : Progress :=
  ⟨steps, desc, scopes .group, scopes .row⟩

variable (steps : Array Step) (d : Descriptions) (scopes : Scope → Scopes) (i : Nat)

/-- A start opens a scope of its kind, whose states begin here, and leaves the other kind alone. -/
theorem read_opening (s : Scope) (desc args : List String) :
    (of steps d scopes).read i (s.opening desc args) =
      .ok (of steps (d.enter s desc)
        (Function.update scopes s ((scopes s).enter steps.size args))) := by
  cases s <;> cases desc <;> rfl

/-- An end closes the innermost scope of its kind, which is repeated; there must be one. -/
theorem read_ending (s : Scope) :
    (of steps d scopes).read i s.ending =
      match (scopes s).leave? with
      | none => .error ⟨s, i⟩
      | some (f, outer) =>
        .ok (of (repeatFrom steps s outer.frames.length f) d (Function.update scopes s outer)) := by
  cases s with
  | group => simp only [of, read, Scope.ending]; cases (scopes .group).leave? <;> rfl
  | row => simp only [of, read, Scope.ending]; cases (scopes .row).leave? <;> rfl

/-- A content record adds its step and leaves the scopes alone. -/
theorem read_content (c : Content) :
    (of steps d scopes).read i (.content c) =
      .ok (of (steps ++ (Step.ofContent (fun s => (scopes s).level) d c).toArray) d scopes) := by
  by_cases h : c.row.isEmpty
  · simp [of, read, Step.ofContent, h]
  · simp [of, read, Step.ofContent, h]
    rfl

@[simp] theorem readAll_endBlock (p : Progress) (rs : List Record) :
    p.readAll i (.endBlock :: rs) = .ok p := rfl

/-- Any record but the end of a block is read before those behind it. -/
theorem readAll_cons (p : Progress) {r : Record} (rs : List Record)
    (hr : r ≠ .endBlock) :
    p.readAll i (r :: rs) = (p.read i r).bind fun q => q.readAll (i + 1) rs := by
  cases r <;> first | exact absurd rfl hr | rfl

variable {i}

theorem readAll_cons_ok {p q : Progress} {r : Record} (rs : List Record)
    (hr : r ≠ .endBlock) (h : p.read i r = .ok q) :
    p.readAll i (r :: rs) = q.readAll (i + 1) rs := by
  rw [readAll_cons i p rs hr, h]
  rfl

end Progress
end Unrolling
end KnittingPattern
