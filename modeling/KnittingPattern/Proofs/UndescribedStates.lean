import KnittingPattern.Proofs.LeftOutComments
import KnittingPattern.Proofs.LexemeCuts
import KnittingPattern.Proofs.RecordGrammar
import KnittingPattern.Proofs.RelabelledLayout

/-! # What is knitted without descriptions

Descriptions go from records to states and have no other part in their unrolling.  So patterns that
differ in their comments only are knitted alike: the same rows with the same repeats, or the same
error.  Main theorems: `State.ofRecords_undescribed`, `Compilation.states_uncommented`. -/

namespace KnittingPattern

/-- The state without its descriptions. -/
def State.undescribed (s : State) : State :=
  ⟨.none, s.groupRepeat, s.rowRepeat, s.counters, s.row, s.args, s.historyRow⟩

/-- The record without its description. -/
def Record.undescribed : Record → Record := Record.describe fun _ => []

namespace Unrolling

namespace Step

def undescribed (s : Step) : Step := ⟨s.state.undescribed, s.groupOwner, s.rowOwner⟩

theorem undescribed_later (scope : Scope) (depth rounds : Nat) (s : Step) :
    (s.later scope depth rounds).undescribed = s.undescribed.later scope depth rounds := by
  cases scope <;> rfl

theorem map_laterRounds (scope : Scope) (depth times : Nat) (body : List Step) :
    (laterRounds scope depth times body).map undescribed =
      laterRounds scope depth times (body.map undescribed) := by
  simp only [laterRounds, List.isEmpty_map]
  split
  · rfl
  · simp only [List.map_flatMap, List.map_map, Function.comp_def, undescribed_later]

end Step

namespace Progress

def undescribed (p : Progress) : Progress :=
  ⟨p.steps.map Step.undescribed, .none, p.groups, p.rows⟩

theorem map_repeatFrom (steps : Array Step) (scope : Scope) (depth : Nat) (f : Frame) :
    (repeatFrom steps scope depth f).map Step.undescribed =
      repeatFrom (steps.map Step.undescribed) scope depth f := by
  unfold repeatFrom
  cases f.times with
  | none => rfl
  | some times =>
    refine Array.toList_inj.mp ?_
    simp [Step.map_laterRounds]

/-- A record without its description is read in the same way. -/
theorem read_undescribed (p : Progress) (index : Nat) (r : Record) :
    p.undescribed.read index r.undescribed = (p.read index r).map undescribed := by
  have hsize : p.undescribed.steps.size = p.steps.size := Array.size_map
  have hrepeat (scope : Scope) (depth : Nat) (f : Frame) (groups rows : Scopes) :
      (⟨repeatFrom p.undescribed.steps scope depth f, .none, groups, rows⟩ : Progress) =
        undescribed ⟨repeatFrom p.steps scope depth f, p.desc, groups, rows⟩ :=
    congrArg (Progress.mk · .none groups rows) (map_repeatFrom p.steps scope depth f).symm
  cases r with
  | startBlock desc => rfl
  | endBlock => rfl
  | startGroup desc args =>
    simp only [Record.undescribed, Record.describe, read, hsize]
    rfl
  | endGroup =>
    simp only [Record.undescribed, Record.describe, read,
      show p.undescribed.groups = p.groups from rfl]
    cases p.groups.leave? with
    | none => rfl
    | some left => exact congrArg Except.ok (hrepeat _ _ _ _ _)
  | startRow desc args =>
    simp only [Record.undescribed, Record.describe, read, hsize]
    rfl
  | endRow =>
    simp only [Record.undescribed, Record.describe, read, show p.undescribed.rows = p.rows from rfl]
    cases p.rows.leave? with
    | none => rfl
    | some left => exact congrArg Except.ok (hrepeat _ _ _ _ _)
  | content c =>
    simp only [Record.undescribed, Record.describe, read]
    cases c.row.isEmpty with
    | true => rfl
    | false =>
      simp only [Bool.false_eq_true, if_false, Except.map, undescribed, Array.map_push]
      rfl

theorem readAll_undescribed (p : Progress) (index : Nat) (rs : List Record) :
    p.undescribed.readAll index (rs.map Record.undescribed) =
      (p.readAll index rs).map undescribed := by
  induction rs generalizing p index with
  | nil => rfl
  | cons r rs ih =>
    by_cases hr : r = .endBlock
    · subst hr
      rfl
    · have hr' : r.undescribed ≠ .endBlock := by
        cases r <;> first | exact absurd rfl hr | exact Record.noConfusion
      rw [List.map_cons, readAll_cons _ _ _ hr', readAll_cons _ _ _ hr,
        read_undescribed]
      cases p.read index r with
      | error e => rfl
      | ok q => exact ih q (index + 1)

end Progress
end Unrolling

/-- Records without descriptions have the states without descriptions, or the same error. -/
theorem State.ofRecords_undescribed (rs : List Record) :
    ofRecords (rs.map Record.undescribed) = (ofRecords rs).map (List.map undescribed) := by
  have hstart : Unrolling.Progress.start.undescribed = .start := by
    simp [Unrolling.Progress.start, Unrolling.Progress.undescribed]
  have h := Unrolling.Progress.readAll_undescribed .start 0 rs
  rw [hstart] at h
  rw [ofRecords, h, ofRecords]
  cases Unrolling.Progress.start.readAll 0 rs with
  | error e => rfl
  | ok p =>
    simp only [Except.map, Unrolling.Progress.undescribed, Array.toList_map, List.map_map]
    rfl

/-- The kind of the error and the name it is about, at no position. -/
def LayoutError.plain (e : LayoutError) : LayoutError := e.map fun _ => .start

theorem Block.records_plain (b : Block) : b.plain.records =
    Layout.relabel (fun _ => .start) (List.map Record.undescribed) b.records :=
  b.records_map ⟨fun _ => rfl, rfl⟩

namespace Compilation

theorem states_eq_error {b : Block} {e : LayoutError} (h : b.records = .error e) :
    states b = .error (.badLayout e) := by
  rw [states, records, h]
  rfl

/-- Patterns that are the same but for positions and descriptions come to the same states but for
descriptions, or to the same error but for its position. -/
theorem states_plain {b b' : Block} (h : b'.plain = b.plain) :
    (∃ e e', states b = .error (.badLayout e) ∧ states b' = .error (.badLayout e') ∧
      e'.plain = e.plain) ∨
    ∃ ss ss', states b = .ok ss ∧ states b' = .ok ss' ∧
      ss'.map State.undescribed = ss.map State.undescribed := by
  have hrecords := (b'.records_plain.symm.trans (congrArg Block.records h)).trans b.records_plain
  obtain ⟨e, e', hr, hr', he⟩ | ⟨rs, rs', hr, hr', hrs⟩ := Layout.exists_of_relabel_eq hrecords
  · exact .inl ⟨e, e', states_eq_error hr, states_eq_error hr', he⟩
  · obtain ⟨ss, hss⟩ := State.ofRecords_ofBlock (b.recordsUnder_ofBlock _ hr)
    obtain ⟨ss', hss'⟩ := State.ofRecords_ofBlock (b'.recordsUnder_ofBlock _ hr')
    have hsame := congrArg State.ofRecords hrs
    rw [State.ofRecords_undescribed, State.ofRecords_undescribed, hss, hss'] at hsame
    exact .inr ⟨ss, ss', states_eq_ok_iff.mpr ⟨rs, hr, hss⟩, states_eq_ok_iff.mpr ⟨rs', hr', hss'⟩,
      Except.ok.inj hsame⟩

/-- Two texts that have the same tokens but for comments are knitted alike: both have an error of
the same kind about the same name, or both have the same states but for their descriptions. -/
theorem states_uncommented {text text' : String} {b b' : Block}
    (hb : Pattern.ofText text = .ok b) (hb' : Pattern.ofText text' = .ok b')
    (h : (Token.uncommented (TokenStream.visible 0 text')).map Token.lexeme =
      (Token.uncommented (TokenStream.visible 0 text)).map Token.lexeme) :
    (∃ e e', states b = .error (.badLayout e) ∧ states b' = .error (.badLayout e') ∧
      e'.plain = e.plain) ∨
    ∃ ss ss', states b = .ok ss ∧ states b' = .ok ss' ∧
      ss'.map State.undescribed = ss.map State.undescribed := by
  have hplain (ts : List Token) : ts.map Token.plain =
      (ts.map Token.lexeme).map fun l => ⟨l.kind, l.text, .start, 0⟩ := by
    rw [List.map_map]
    rfl
  have htokens : (Token.uncommented (TokenStream.ofSources [text']).tokens).map Token.plain =
      (Token.uncommented (TokenStream.ofSources [text]).tokens).map Token.plain := by
    rw [hplain, hplain]
    exact congrArg (List.map _) h
  refine states_plain (Pattern.plain_of_uncommented ?_ ?_ htokens hb hb') <;> rfl

/-- A group to be knitted twice, under a title and two descriptions. -/
def titled : Block :=
  ⟨[.group ⟨4, 1⟩ ⟨6, 1⟩ [.size ⟨⟨6, 3⟩, .whole 2, .count, false⟩]
    [.row [.stitch ⟨5, 1⟩ ⟨⟨5, 1⟩, "k"⟩ []] [] ⟨[⟨⟨5, 3⟩, "; knit"⟩]⟩] ⟨[⟨⟨3, 1⟩, "; Rib"⟩]⟩],
    ⟨1, 1⟩, ⟨7, 0⟩, ⟨[⟨⟨1, 1⟩, "; Scarf"⟩]⟩⟩

/-- The same group with a comment behind it. -/
def untitled : Block :=
  ⟨[.group ⟨4, 1⟩ ⟨6, 1⟩ [.size ⟨⟨6, 3⟩, .whole 2, .count, false⟩]
    [.row [.stitch ⟨5, 1⟩ ⟨⟨5, 1⟩, "k"⟩ []] [] .none] ⟨[⟨⟨6, 6⟩, "; twice"⟩]⟩],
    ⟨1, 1⟩, ⟨7, 0⟩, .none⟩

/-- Title, descriptions and comments behind statements may change; both rounds stay. -/
theorem states_uncommented_titled :
    Pattern.ofText "; Scarf\n\n; Rib\n\x7b\nk ; knit\n\x7d(2)\n" = .ok titled ∧
    Pattern.ofText "\n\n\n\x7b\nk\n\x7d(2) ; twice\n" = .ok untitled ∧
    (states titled).toOption.map (List.map State.desc) ≠
      (states untitled).toOption.map (List.map State.desc) ∧
    ∃ ss ss', states titled = .ok ss ∧ states untitled = .ok ss' ∧ ss.length = 2 ∧
      ss'.map State.undescribed = ss.map State.undescribed := by
  have hb : Pattern.ofText "; Scarf\n\n; Rib\n\x7b\nk ; knit\n\x7d(2)\n" = .ok titled := rfl
  have hb' : Pattern.ofText "\n\n\n\x7b\nk\n\x7d(2) ; twice\n" = .ok untitled := rfl
  refine ⟨hb, hb', by decide, ?_⟩
  have htwo : (states titled).toOption.map List.length = some 2 := by decide
  obtain ⟨e, e', he, -⟩ | ⟨ss, ss', hss, hss', hsame⟩ :=
    states_uncommented hb hb' (by decide +kernel)
  · rw [he] at htwo
    cases htwo
  · rw [hss] at htwo
    exact ⟨ss, ss', hss, hss', Option.some.inj htwo, hsame⟩

end Compilation
end KnittingPattern
