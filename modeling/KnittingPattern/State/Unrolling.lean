import KnittingPattern.Decimal.Digits
import KnittingPattern.Record
import KnittingPattern.State

/-! # Unrolling records

The rows of a list of records become states, in their order.  A group or a row with a count is
repeated: when it ends, the states that came since its start are copied for each further round.  The
round of a state is counted by the innermost repeat around it, so copies for an outer repeat leave
it alone.  Groups and rows are counted apart.  Main definition: `State.ofRecords`. -/

namespace KnittingPattern

/-- What a count repeats. -/
inductive Scope where
  | group
  | row
deriving DecidableEq

/-- The end of a group or row that has no start; `index` is that of the record. -/
structure Unbalanced where
  scope : Scope
  index : Nat
deriving DecidableEq

namespace Scope

def name : Scope → String
  | group => "group"
  | row => "row"

end Scope

namespace Unbalanced

def message (e : Unbalanced) : String :=
  "end of " ++ e.scope.name ++ " at line record " ++ toString e.index ++ " has no matching start"

end Unbalanced

/-- How often arguments ask for a repeat: they are one whole number from one on. -/
def repeatCount? (args : List String) : Option Nat :=
  match args with
  | [arg] => (Decimal.nat64? arg.toList).filter fun n => 1 ≤ n
  | _ => none

namespace Unrolling

/-- A state with the depths of the scopes that count its rounds. -/
structure Step where
  state : State
  groupOwner : Option Nat
  rowOwner : Option Nat

/-- An open scope: where its states begin, how often it is repeated, and the round around it with
the depth of the scope that counts it. -/
structure Frame where
  start : Nat
  times : Option Nat
  outer : Option Repeat
  outerOwner : Option Nat

/-- The open scopes of one kind, innermost first, and the round in effect. -/
structure Scopes where
  frames : List Frame
  current : Option Repeat
  owner : Option Nat

namespace Scopes

def none : Scopes := ⟨[], Option.none, Option.none⟩

/-- Opens a scope whose states begin at `start`; a count starts rounds of its own. -/
def enter (s : Scopes) (start : Nat) (args : List String) : Scopes :=
  let frames := ⟨start, repeatCount? args, s.current, s.owner⟩ :: s.frames
  match repeatCount? args with
  | some n => ⟨frames, some ⟨1, n⟩, some s.frames.length⟩
  | Option.none => ⟨frames, s.current, s.owner⟩

/-- Closes the innermost scope; the round around it is in effect again. -/
def leave? (s : Scopes) : Option (Frame × Scopes) :=
  match s.frames with
  | [] => Option.none
  | f :: fs => some (f, ⟨fs, f.outer, f.outerOwner⟩)

end Scopes

namespace Step

/-- The same step some rounds later, if a scope at this depth counts them. -/
def later (scope : Scope) (depth rounds : Nat) (s : Step) : Step :=
  let shift (owner : Option Nat) (r : Option Repeat) : Option Repeat :=
    if owner = some depth then r.map fun r => ⟨r.current + rounds, r.max⟩ else r
  let st := s.state
  match scope with
  | .group =>
    ⟨⟨st.desc, shift s.groupOwner st.groupRepeat, st.rowRepeat, st.counters, st.row, st.args,
      st.historyRow⟩, s.groupOwner, s.rowOwner⟩
  | .row =>
    ⟨⟨st.desc, st.groupRepeat, shift s.rowOwner st.rowRepeat, st.counters, st.row, st.args,
      st.historyRow⟩, s.groupOwner, s.rowOwner⟩

/-- The steps of all rounds after the first one. -/
def laterRounds (scope : Scope) (depth times : Nat) (body : List Step) : List Step :=
  if body.isEmpty then []
  else (List.range' 1 (times - 1)).flatMap fun rounds => body.map (later scope depth rounds)

end Step

/-- The unrolling of the records read so far. -/
structure Progress where
  steps : Array Step
  desc : Descriptions
  groups : Scopes
  rows : Scopes

namespace Progress

def start : Progress := ⟨#[], .none, .none, .none⟩

/-- A description that has lines takes the place of the one before. -/
def describe (old : String) (lines : List String) : String :=
  if lines.isEmpty then old else "\n".intercalate lines

/-- The states from where a scope began come again for each further round. -/
def repeatFrom (steps : Array Step) (scope : Scope) (depth : Nat) (f : Frame) : Array Step :=
  match f.times with
  | some times =>
    steps ++ Step.laterRounds scope depth times (steps.extract f.start steps.size).toList
  | none => steps

/-- Reads one record that does not end the block. -/
def read (p : Progress) (index : Nat) : Record → Except Unbalanced Progress
  | .startBlock desc =>
    .ok ⟨p.steps, ⟨"\n".intercalate desc, p.desc.group, p.desc.row⟩, p.groups, p.rows⟩
  | .endBlock => .ok p
  | .startGroup desc args =>
    .ok ⟨p.steps, ⟨p.desc.block, describe p.desc.group desc, p.desc.row⟩,
      p.groups.enter p.steps.size args, p.rows⟩
  | .endGroup =>
    match p.groups.leave? with
    | none => .error ⟨.group, index⟩
    | some (f, groups) =>
      .ok ⟨repeatFrom p.steps .group groups.frames.length f, p.desc, groups, p.rows⟩
  | .startRow desc args =>
    .ok ⟨p.steps, ⟨p.desc.block, p.desc.group, describe p.desc.row desc⟩, p.groups,
      p.rows.enter p.steps.size args⟩
  | .endRow =>
    match p.rows.leave? with
    | none => .error ⟨.row, index⟩
    | some (f, rows) =>
      .ok ⟨repeatFrom p.steps .row rows.frames.length f, p.desc, p.groups, rows⟩
  | .content c =>
    if c.row.isEmpty then .ok p
    else
      let s := State.ofRow p.desc c.row c.args
      .ok ⟨p.steps.push
        ⟨⟨s.desc, p.groups.current, p.rows.current, s.counters, s.row, s.args, s.historyRow⟩,
          p.groups.owner, p.rows.owner⟩, p.desc, p.groups, p.rows⟩

/-- Reads records up to the first end of a block. -/
def readAll (p : Progress) (index : Nat) : List Record → Except Unbalanced Progress
  | [] => .ok p
  | .endBlock :: _ => .ok p
  | r :: rs => do (← p.read index r).readAll (index + 1) rs

end Progress
end Unrolling

/-- The states of a list of records; what follows the first end of a block does not count. -/
def State.ofRecords (rs : List Record) : Except Unbalanced (List State) :=
  (Unrolling.Progress.start.readAll 0 rs).map fun p => p.steps.toList.map Unrolling.Step.state

end KnittingPattern
