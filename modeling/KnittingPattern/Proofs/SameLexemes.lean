import KnittingPattern.Proofs.DefinitionOrder
import KnittingPattern.Proofs.SameDescriptions
import KnittingPattern.Proofs.UndescribedStates

/-! # Patterns of the same tokens

Where tokens stand has no part in what is read of them and knitted.  Tokens of the same classes with
the same literals are read as the same tree but for positions, or with the same error but for
positions, and such trees have the same states.  Main theorems: `Reader.Same.run`,
`Pattern.agree_ofText`, `Compilation.states_same`. -/

namespace KnittingPattern

/-- Both results are fine and the same in some sense, or both are the same error but for its
positions. -/
inductive SyntaxError.Agree {α : Type} (same : α → α → Prop) :
    Except SyntaxError α → Except SyntaxError α → Prop
  | ok {a a' : α} (h : same a a') : Agree same (.ok a) (.ok a')
  | error {e e' : SyntaxError} (h : e'.placeless = e.placeless) : Agree same (.error e) (.error e')

open SyntaxError (Agree)

namespace Reader

/-- Readers that are the same but for positions. -/
structure Same (r r' : Reader) : Prop where
  plain : r'.plain = r.plain
  alike : r.Alike r'

variable {r r' : Reader} {t t' : Token} {ts ts' : List Token}

/-- A comment is an error where the line of a statement cannot end. -/
theorem step_plain_comment {e : SyntaxError} (ht : t.kind = .comment) (h : r.step t = .error e) :
    r.plain.step t.plain = .error e.placeless := by
  obtain ⟨title, groups, ss, place⟩ := r
  obtain ⟨kind, literal, position, source⟩ := t
  obtain rfl : kind = .comment := ht
  cases place with
  | between run desc => cases run <;> cases h
  | elements line | stitch line _ | closed line _ =>
    obtain ⟨role, desc, braces, es⟩ := line
    cases braces with
    | nil => cases h
    | cons b braces =>
      cases h
      rfl
  | args owner as place =>
    cases place <;> cases h <;> rfl
  | word _ _ | groupClosed _ _ _ | lineEnd _ => cases h
  | _ =>
    cases h
    rfl

/-- The error at a token does not depend on positions and descriptions. -/
theorem step_plain_error {e : SyntaxError} (h : r.step t = .error e) :
    r.plain.step t.plain = .error e.placeless := by
  by_cases ht : t.kind = .comment
  · exact step_plain_comment ht h
  · have hgoes := step_plain (r := r) ht
    rw [h] at hgoes
    exact hgoes

/-- Readers that are the same take tokens of the same class and literal alike. -/
theorem Same.step (h : r.Same r') (ht : t'.lexeme = t.lexeme) :
    Agree Same (r.step t) (r'.step t') := by
  have hsame : t.lexeme.Same t'.lexeme := ht ▸ .rfl
  have htoken : t'.plain = t.plain := by
    obtain ⟨hkind, hliteral⟩ := Lexeme.mk.inj ht
    simp only [Token.plain, hkind, hliteral]
  cases hq : r.step t with
  | ok q =>
    obtain ⟨q', hq', hplain⟩ := exists_step_of_same h.plain hsame hq
    rw [hq']
    exact .ok ⟨hplain, h.alike.step h.plain hsame hq hq'⟩
  | error e =>
    cases hq' : r'.step t' with
    | ok q' =>
      obtain ⟨q, hok, -⟩ := exists_step_of_same h.plain.symm hsame.symm hq'
      cases hq.symm.trans hok
    | error e' =>
      have he' := step_plain_error hq'
      rw [h.plain, htoken, step_plain_error hq] at he'
      exact .error (Except.error.inj he').symm

theorem Same.run (h : r.Same r') (hts : ts'.map Token.lexeme = ts.map Token.lexeme) :
    Agree Same (r.run ts) (r'.run ts') := by
  induction ts generalizing r r' ts' with
  | nil =>
    obtain rfl := List.map_eq_nil_iff.mp hts
    exact .ok h
  | cons t ts ih =>
    obtain ⟨t', ts', rfl, ht, hts⟩ := List.map_eq_cons_iff.mp hts
    have hstep := h.step ht
    generalize hq : r.step t = x at hstep
    generalize hq' : r'.step t' = x' at hstep
    cases hstep with
    | ok h =>
      rw [run_cons ts hq, run_cons ts' hq']
      exact ih h hts
    | error he =>
      rw [run_cons_error ts hq, run_cons_error ts' hq']
      exact .error he

end Reader

/-- Trees that are the same but for positions. -/
def Block.Same (b b' : Block) : Prop := b'.placeless = b.placeless

namespace Pattern

/-- What a text is read as depends on its tokens only. -/
theorem agree_ofText {text text' : String}
    (h : (TokenStream.visible 0 text').map Token.lexeme =
      (TokenStream.visible 0 text).map Token.lexeme) :
    Agree Block.Same (ofText text) (ofText text') := by
  have htokens : ((TokenStream.ofText text').tokens ++ [(TokenStream.ofText text').last]).map
      Token.lexeme = ((TokenStream.ofText text).tokens ++ [(TokenStream.ofText text).last]).map
      Token.lexeme := by
    rw [List.map_append, List.map_append]
    exact congrArg (· ++ _) h
  have hstart : Reader.start.Same .start := ⟨rfl, rfl, .nil, .nil, .between rfl⟩
  have hrun := hstart.run htokens
  generalize hq : Reader.start.run _ = x at hrun
  generalize hq' : Reader.start.run _ = x' at hrun
  cases hrun with
  | ok hsame =>
    have hb : ofText text = .ok _ := read_eq_ok hq
    have hb' : ofText text' = .ok _ := read_eq_ok hq'
    rw [hb, hb']
    exact .ok (Block.placeless_of_alike hsame.alike.statements hsame.alike.title
      (areLines_of_ofSources hb) (areLines_of_ofSources hb')
      (Block.plain_eq hsame.plain _ _ _ _ _ _))
  | error he =>
    have hb : ofText text = .error _ := read_eq_error_iff.mpr hq
    have hb' : ofText text' = .error _ := read_eq_error_iff.mpr hq'
    rw [hb, hb']
    exact .error he

end Pattern

/-- Comments have their lines anywhere. -/
theorem Description.changes_placeless : Changes placeless id where
  lines d := by simp [placeless, lines, Function.comp_def]
  nil := rfl

theorem Block.records_placeless (b : Block) : b.placeless.records =
    Layout.relabel (fun _ => .start) id b.records := by
  rw [placeless, b.records_map Description.changes_placeless, Record.describe_id, List.map_id_fun]

/-- Patterns that are the same but for positions come to the same states, or to the same error but
for its position. -/
theorem Compilation.states_same {b b' : Block} (h : b.Same b') :
    (∃ e e', states b = .error (.badLayout e) ∧ states b' = .error (.badLayout e') ∧
      e'.plain = e.plain) ∨
    ∃ ss, states b = .ok ss ∧ states b' = .ok ss := by
  have hrecords := congrArg Block.records h
  rw [b'.records_placeless, b.records_placeless] at hrecords
  obtain ⟨e, e', hr, hr', he⟩ | ⟨rs, rs', hr, hr', hrs⟩ := Layout.exists_of_relabel_eq hrecords
  · exact .inl ⟨e, e', states_eq_error hr, states_eq_error hr', he⟩
  · obtain rfl : rs' = rs := hrs
    obtain ⟨ss, hss⟩ := State.ofRecords_ofBlock (b.recordsUnder_ofBlock _ hr)
    exact .inr ⟨ss, states_eq_ok_iff.mpr ⟨rs', hr, hss⟩, states_eq_ok_iff.mpr ⟨rs', hr', hss⟩⟩

end KnittingPattern
