import KnittingPattern.Json.Reader
import KnittingPattern.Proofs.JsonScanning

/-! # JSON values read back

The reader takes the lexemes of a value and has the value behind them, whatever it is inside of.  So
a value is read back from its text, in every layout.  Main theorem: `Json.parse?_pretty`. -/

namespace KnittingPattern

namespace Json

namespace Reader

/-- Fields with their names. -/
def named (fs : List (String × Json)) : List (Option String × Json) :=
  fs.map fun f => (some f.1, f.2)

theorem mapM_named {read : Option String × Json → Option (String × Json)}
    (h : ∀ k j, read (some k, j) = some (k, j)) (fs : List (String × Json)) :
    (named fs).mapM read = some fs := by
  induction fs with
  | nil => rfl
  | cons f fs ih =>
    rw [named] at ih
    rw [named, List.map_cons, List.mapM_cons, h, ih]
    rfl

theorem close_named (fs : List (String × Json)) : close (named fs).reverse = .object fs := by
  rw [close, List.reverse_reverse, mapM_named fun k j => rfl]

/-- A value does not begin with the bracket that closes an array, so the first item of an array is
read like any other. -/
theorem foldlM_firstItem (frames : List Frame) (j : Json) (ls : List Lexeme) :
    (lexemes j ls).foldlM step ⟨frames, .firstItem⟩ =
      (lexemes j ls).foldlM step ⟨.items [] :: frames, .value⟩ := by
  cases j with
  | array items => cases items <;> rfl
  | object fields => cases fields <;> rfl
  | _ => rfl

mutual

theorem foldlM_lexemes (frames : List Frame) (j : Json) (ls : List Lexeme) :
    (lexemes j ls).foldlM step ⟨frames, .value⟩ = ls.foldlM step ⟨frames, .done j⟩ := by
  cases j with
  | array items =>
    cases items with
    | nil => rfl
    | cons j js =>
      have h1 : (lexemes (.array (j :: js)) ls).foldlM step ⟨frames, .value⟩ =
          (lexemes j (itemLexemes js (.rightBracket :: ls))).foldlM step ⟨frames, .firstItem⟩ := rfl
      rw [h1, foldlM_firstItem, foldlM_lexemes (.items [] :: frames) j]
      exact foldlM_itemLexemes frames [] j js ls
  | object fields =>
    cases fields with
    | nil => rfl
    | cons f fs =>
      obtain ⟨k, j⟩ := f
      have h1 : (lexemes (.object ((k, j) :: fs)) ls).foldlM step ⟨frames, .value⟩ =
          (lexemes j (fieldLexemes fs (.rightBrace :: ls))).foldlM step
            ⟨.member [] (some k) :: frames, .value⟩ := rfl
      rw [h1, foldlM_lexemes (.member [] (some k) :: frames) j]
      exact foldlM_fieldLexemes frames [] k j fs ls
  | _ => rfl

theorem foldlM_itemLexemes (frames : List Frame) (before : List Json) (j : Json) (js : List Json)
    (ls : List Lexeme) :
    (itemLexemes js (.rightBracket :: ls)).foldlM step ⟨.items before.reverse :: frames, .done j⟩ =
      ls.foldlM step ⟨frames, .done (.array (before ++ j :: js))⟩ := by
  cases js with
  | nil =>
    have h1 : step ⟨.items before.reverse :: frames, .done j⟩ .rightBracket =
        some ⟨frames, .done (.array (j :: before.reverse).reverse)⟩ := rfl
    rw [itemLexemes, List.foldlM_cons, h1, List.reverse_cons, List.reverse_reverse]
    rfl
  | cons j' js =>
    have h1 : step ⟨.items before.reverse :: frames, .done j⟩ .comma =
        some ⟨.items (j :: before.reverse) :: frames, .value⟩ := rfl
    have h2 := foldlM_itemLexemes frames (before ++ [j]) j' js ls
    rw [List.reverse_append, List.append_assoc] at h2
    rw [itemLexemes, List.foldlM_cons, h1]
    exact (foldlM_lexemes _ j' _).trans h2

theorem foldlM_fieldLexemes (frames : List Frame) (before : List (String × Json)) (k : String)
    (j : Json) (fs : List (String × Json)) (ls : List Lexeme) :
    (fieldLexemes fs (.rightBrace :: ls)).foldlM step
        ⟨.member (named before).reverse (some k) :: frames, .done j⟩ =
      ls.foldlM step ⟨frames, .done (.object (before ++ (k, j) :: fs))⟩ := by
  cases fs with
  | nil =>
    have h1 : step ⟨.member (named before).reverse (some k) :: frames, .done j⟩ .rightBrace =
        some ⟨frames, .done (close ((some k, j) :: (named before).reverse))⟩ := rfl
    have h2 : (some k, j) :: (named before).reverse = (named (before ++ [(k, j)])).reverse := by
      simp [named]
    rw [fieldLexemes, List.foldlM_cons, h1, h2, close_named]
    rfl
  | cons f fs =>
    obtain ⟨k', j'⟩ := f
    have h1 : (fieldLexemes ((k', j') :: fs) (.rightBrace :: ls)).foldlM step
          ⟨.member (named before).reverse (some k) :: frames, .done j⟩ =
        (lexemes j' (fieldLexemes fs (.rightBrace :: ls))).foldlM step
          ⟨.member ((some k, j) :: (named before).reverse) (some k') :: frames, .value⟩ := rfl
    have h2 : (some k, j) :: (named before).reverse = (named (before ++ [(k, j)])).reverse := by
      simp [named]
    have h3 := foldlM_fieldLexemes frames (before ++ [(k, j)]) k' j' fs ls
    rw [List.append_assoc] at h3
    rw [h1, foldlM_lexemes, h2]
    exact h3

end

end Reader

/-- A value is read back from the text that a layout writes it as. -/
theorem parse?_write {l : Layout} (hl : l.Blank) {j : Json} (hj : j.isPlain) :
    parse? (String.ofList (write l 0 j [])) = some j := by
  have hr := Reader.foldlM_lexemes [] j []
  simp only [parse?, String.toList_ofList, scan?_write hl hj, Option.bind_eq_bind,
    Option.bind_some, hr]
  rfl

theorem parse?_pretty {j : Json} (hj : j.isPlain) : parse? j.pretty = some j :=
  parse?_write blank_indented hj

end Json
end KnittingPattern
