import KnittingPattern.Record.Layout
import KnittingPattern.Proofs.NamesGrammar
import Mathlib.Data.List.Perm.Subperm

/-! # Definitions within definitions

No definition is used within itself, so definitions are in use within each other at most as deep as
there are definitions.  A layout that has room for so many ends for a reason of the pattern, and
more room makes no difference.  Nor does what is laid out within a definition depend on what that
definition is.  Main theorems: `Layout.expand_redefined`, `Block.recordsWithin_eq`. -/

namespace KnittingPattern

namespace Layout

/-- A row statement that is a name for a row with arguments. -/
theorem exists_of_loneRow? {es args es' args' : List Expr} {id : Identifier}
    (h : loneRow? names es args = some (id, es', args')) :
    args = [] ∧ (es = [.ident id] ∨ ∃ position, es = [.stitch position id []]) ∧
      names.definition? id.name = some (.row es' args') := by
  obtain ⟨id', hid, h⟩ := Option.bind_eq_some_iff.mp h
  obtain ⟨d, hd, h⟩ := Option.bind_eq_some_iff.mp h
  split at h
  · cases h
    unfold loneName? at hid
    split at hid
    · cases hid
      exact ⟨rfl, .inl rfl, hd⟩
    · cases hid
      exact ⟨rfl, .inr ⟨_, rfl⟩, hd⟩
    · cases hid
  · cases h

/-- The definitions in use: each is used once and is a definition of the pattern, and `unused`
bounds how many others there are. -/
structure InUse (names : Names) (unused : Nat) (within : List String) : Prop where
  nodup : within.Nodup
  defined : within ⊆ names.definitions.map Prod.fst
  bound : names.definitions.length ≤ within.length + unused

namespace InUse

variable {names : Names} {unused : Nat} {within : List String} {name : String}

theorem none {unused : Nat} (h : names.definitions.length ≤ unused) : InUse names unused [] :=
  ⟨List.nodup_nil, List.nil_subset _, by simpa using h⟩

theorem nodup_cons_subset (h : InUse names unused within) (hd : (names.definition? name).isSome)
    (hw : name ∉ within) : (name :: within).Nodup ∧
      name :: within ⊆ names.definitions.map Prod.fst := by
  obtain ⟨d, hd⟩ := Option.isSome_iff_exists.mp hd
  have hm : name ∈ names.definitions.map Prod.fst :=
    List.mem_map.mpr ⟨_, Names.mem_definitions hd, rfl⟩
  exact ⟨List.nodup_cons.mpr ⟨hw, h.nodup⟩, List.cons_subset.mpr ⟨hm, h.defined⟩⟩

/-- A definition that is not in use is one of the others. -/
theorem unused_pos (h : InUse names unused within) (hd : (names.definition? name).isSome)
    (hw : name ∉ within) : 0 < unused := by
  obtain ⟨hn, hs⟩ := h.nodup_cons_subset hd hw
  have hle : (name :: within).length ≤ (names.definitions.map Prod.fst).length :=
    (hn.subperm hs).length_le
  have hb := h.bound
  rw [List.length_cons, List.length_map] at hle
  omega

theorem enter (h : InUse names (unused + 1) within) (hd : (names.definition? name).isSome)
    (hw : name ∉ within) : InUse names unused (name :: within) := by
  obtain ⟨hn, hs⟩ := h.nodup_cons_subset hd hw
  have hb := h.bound
  refine ⟨hn, hs, ?_⟩
  rw [List.length_cons]
  omega

end InUse

/-- A row statement that is a definition is the name of that definition. -/
theorem loneName?_of_loneRow? {n : Names} {es args es' args' : List Expr} {id : Identifier}
    (h : loneRow? n es args = some (id, es', args')) : loneName? es args = some id := by
  obtain ⟨id', hl, h⟩ := Option.bind_eq_some_iff.mp h
  obtain ⟨d, -, h⟩ := Option.bind_eq_some_iff.mp h
  split at h <;> cases h
  exact hl

section

variable {n n' : Names}

/-- The texts of a row depend on synonyms, and on no definition. -/
theorem texts_of_synonyms (h : n.synonyms = n'.synonyms) (args : List Expr) :
    Brackets.texts n args = Brackets.texts n' args := by
  obtain ⟨s, ds⟩ := n
  obtain ⟨s', ds'⟩ := n'
  obtain rfl : s = s' := h
  rfl

theorem stitchFragment_of_synonyms (h : n.synonyms = n'.synonyms) (id : Identifier)
    (args : List Expr) : stitchFragment n id args = stitchFragment n' id args := by
  obtain ⟨s, ds⟩ := n
  obtain ⟨s', ds'⟩ := n'
  obtain rfl : s = s' := h
  rfl

theorem braced_of_synonyms (h : n.synonyms = n'.synonyms) (args : List Expr) (ps : List Piece) :
    braced n args ps = braced n' args ps := by
  rw [braced, braced, Brackets.phrase, Brackets.phrase, texts_of_synonyms h]

end

/-- A name for a row with arguments that is in use already. -/
structure Refused (n : Names) (f : Bool → Identifier → Expr → Except LayoutError (List Piece))
    (id : Identifier) : Prop where
  row : ∃ es arg args, n.definition? id.name = some (.row es (arg :: args))
  circular : ∀ inline d, f inline id d = .error (.circular id)

/-- Two collections of names, and two ways of laying out their definitions, do the same: a name has
one definition with one layout, or is refused by both. -/
structure Alike (n n' : Names) (f g : Bool → Identifier → Expr → Except LayoutError (List Piece)) :
    Prop where
  synonyms : n.synonyms = n'.synonyms
  definitions : ∀ id, (n.definition? id.name = n'.definition? id.name ∧
      ∀ inline d, (n.definition? id.name).isSome → f inline id d = g inline id d) ∨
    Refused n f id ∧ Refused n' g id

section

variable {n n' : Names} {w : List String}
  {f g : Bool → Identifier → Expr → Except LayoutError (List Piece)}

namespace Alike

theorem of_eq (h : ∀ inline id d, (n.definition? id.name).isSome → f inline id d = g inline id d) :
    Alike n n f g :=
  ⟨rfl, fun id => .inl ⟨rfl, fun inline d hd => h inline id d hd⟩⟩

theorem texts (h : Alike n n' f g) (args : List Expr) :
    Brackets.texts n args = Brackets.texts n' args :=
  texts_of_synonyms h.synonyms args

theorem stitchFragment (h : Alike n n' f g) (id : Identifier) (args : List Expr) :
    stitchFragment n id args = stitchFragment n' id args :=
  stitchFragment_of_synonyms h.synonyms id args

theorem braced (h : Alike n n' f g) (args : List Expr) (ps : List Piece) :
    braced n args ps = braced n' args ps :=
  braced_of_synonyms h.synonyms args ps

end Alike

mutual

theorem element_alike (h : Alike n n' f g) (inline : Bool) (e : Expr) :
    element ⟨n, w, f⟩ inline e = element ⟨n', w, g⟩ inline e := by
  cases e with
  | ident id =>
    obtain ⟨hsame, hf⟩ | ⟨⟨⟨es, arg, args, hd⟩, hf⟩, ⟨es', arg', args', hd'⟩, hg⟩ :=
      h.definitions id
    · cases hd : n.definition? id.name with
      | none => simp only [element, ← hsame, hd]
      | some d => simp only [element, ← hsame, hd, hf inline d (by rw [hd]; rfl)]
    · simp only [element, hd, hd', hf, hg]
  | size s => rfl
  | stitch position id args =>
    obtain ⟨hsame, hf⟩ | ⟨⟨⟨es, arg, args', hd⟩, hf⟩, ⟨es', arg', args'', hd'⟩, hg⟩ :=
      h.definitions id
    · cases hd : n.definition? id.name with
      | none => simp only [element, ← hsame, hd, h.stitchFragment]
      | some d => simp only [element, ← hsame, hd, hf inline d (by rw [hd]; rfl), h.texts]
    · simp only [element, hd, hd', hf, hg]
      rfl
  | row es args => simp only [element, elements_alike h true es, h.braced]
  | group lbrace rbrace args lines => simp only [element, statements_alike h lines, h.texts]

theorem elements_alike (h : Alike n n' f g) (inline : Bool) (es : List Expr) :
    elements ⟨n, w, f⟩ inline es = elements ⟨n', w, g⟩ inline es := by
  cases es with
  | nil => rfl
  | cons e es => simp only [elements, element_alike h inline e, elements_alike h inline es]

theorem statement_alike (h : Alike n n' f g) (s : Stmt) :
    statement ⟨n, w, f⟩ s = statement ⟨n', w, g⟩ s := by
  cases s with
  | synonym lhs rhs desc => rfl
  | define lhs rhs desc => rfl
  | row es args desc =>
    cases hl : loneName? es args with
    | none =>
      have hr (names : Names) : loneRow? names es args = none := by simp [loneRow?, hl]
      simp only [statement, hr, elements_alike h false es, h.texts]
    | some id =>
      obtain ⟨hsame, hf⟩ | ⟨⟨⟨es', arg, args', hd⟩, hf⟩, ⟨es'', arg', args'', hd'⟩, hg⟩ :=
        h.definitions id
      · have hlone : loneRow? n es args = loneRow? n' es args := by
          simp only [loneRow?, hl, Option.bind_eq_bind, Option.bind_some, hsame]
        simp only [statement, ← hlone]
        cases hr : loneRow? n es args with
        | none => simp only [elements_alike h false es, h.texts]
        | some found =>
          obtain ⟨id', es', args'⟩ := found
          obtain rfl : id = id' := Option.some.inj (hl.symm.trans (loneName?_of_loneRow? hr))
          obtain ⟨-, -, hd⟩ := exists_of_loneRow? hr
          simp only [hf false (.row es' []) (by rw [hd]; rfl), h.texts]
      · have hr : loneRow? n es args = some (id, es', arg :: args') := by
          simp [loneRow?, hl, hd]
        have hr' : loneRow? n' es args = some (id, es'', arg' :: args'') := by
          simp [loneRow?, hl, hd']
        simp only [statement, hr, hr', hf, hg]
        rfl
  | group lbrace rbrace args lines desc =>
    simp only [statement, statements_alike h lines, h.texts]
  | block ss start stop desc => simp only [statement, statements_alike h ss]

theorem statements_alike (h : Alike n n' f g) (ss : List Stmt) :
    statements ⟨n, w, f⟩ ss = statements ⟨n', w, g⟩ ss := by
  cases ss with
  | nil => rfl
  | cons s ss => simp only [statements, statement_alike h s, statements_alike h ss]

end

theorem definitionPieces_alike (h : Alike n n' f g) (inline : Bool) (d : Expr) :
    definitionPieces ⟨n, w, f⟩ inline d = definitionPieces ⟨n', w, g⟩ inline d := by
  unfold definitionPieces
  split
  · exact elements_alike h inline _
  · exact element_alike h inline d

end

section

variable {names : Names} {w : List String}

/-- More definitions that are not in use make no difference. -/
theorem expand_agree {n m : Nat} (hn : InUse names n w) (hm : InUse names m w) :
    Alike names names (expand names n w) (expand names m w) := by
  induction n generalizing m w with
  | zero =>
    refine .of_eq fun inline id d hd => ?_
    by_cases hw : id.name ∈ w
    · cases m <;> simp only [expand, if_pos hw]
    · exact absurd (hn.unused_pos hd hw) (Nat.lt_irrefl 0)
  | succ n ih =>
    refine .of_eq fun inline id d hd => ?_
    by_cases hw : id.name ∈ w
    · cases m <;> simp only [expand, if_pos hw]
    · obtain ⟨m, rfl⟩ := Nat.exists_eq_add_one.mpr (hm.unused_pos hd hw)
      simp only [expand, if_neg hw]
      exact definitionPieces_alike (ih (hn.enter hd hw) (hm.enter hd hw)) inline d

end

/-- What the pieces of a definition have if those of the definitions within it do. -/
theorem expand_induction {names : Names} {Q : Expr → List Piece → Prop}
    (step : ∀ (w : List String) (f : Bool → Identifier → Expr → Except LayoutError (List Piece)),
      (∀ inline id d ps, d.isDefinition true → f inline id d = .ok ps → Q d ps) →
        ∀ inline d ps, d.isDefinition true →
          definitionPieces ⟨names, w, f⟩ inline d = .ok ps → Q d ps)
    (unused : Nat) (w : List String) : ∀ inline id d ps, d.isDefinition true →
      expand names unused w inline id d = .ok ps → Q d ps := by
  induction unused generalizing w with
  | zero =>
    intro inline id d ps hd h
    simp only [expand] at h
    split at h <;> cases h
  | succ n ih =>
    intro inline id d ps hd h
    simp only [expand] at h
    split at h
    · cases h
    · exact step _ _ (ih _) inline d ps hd h

/-- Two collections of names differ in one definition, which is a row with arguments in both. -/
structure Redefined (name : String) (n n' : Names) : Prop where
  synonyms : n.synonyms = n'.synonyms
  others : ∀ other, other ≠ name → n.definition? other = n'.definition? other
  before : ∃ es arg args, n.definition? name = some (.row es (arg :: args))
  behind : ∃ es arg args, n'.definition? name = some (.row es (arg :: args))

section

variable {name : String} {n n' : Names} {w : List String} {unused : Nat}

theorem expand_circular {inline : Bool} {id : Identifier} {d : Expr} (h : id.name ∈ w) :
    expand n unused w inline id d = .error (.circular id) := by
  cases unused <;> simp only [expand, if_pos h]

/-- A definition that is in use is refused, whatever it is. -/
theorem Redefined.alike (h : Redefined name n n') (hw : name ∈ w)
    (hs : ∀ inline id d, expand n unused w inline id d = expand n' unused w inline id d) :
    Alike n n' (expand n unused w) (expand n' unused w) := by
  refine ⟨h.synonyms, fun id => ?_⟩
  by_cases hid : id.name = name
  · exact .inr ⟨⟨hid ▸ h.before, fun _ _ => expand_circular (hid ▸ hw)⟩,
      ⟨hid ▸ h.behind, fun _ _ => expand_circular (hid ▸ hw)⟩⟩
  · exact .inl ⟨h.others _ hid, fun inline d _ => hs inline id d⟩

/-- Within a definition all others are laid out as they are if it is another row. -/
theorem expand_redefined (h : Redefined name n n') (unused : Nat) (hw : name ∈ w) :
    Alike n n' (expand n unused w) (expand n' unused w) := by
  induction unused generalizing w with
  | zero => exact h.alike hw fun inline id d => by simp only [expand]
  | succ unused ih =>
    refine h.alike hw fun inline id d => ?_
    simp only [expand, definitionPieces_alike (ih (List.mem_cons_of_mem id.name hw))]

end

end Layout

open Layout

/-- Lays out a pattern in which definitions are in use within each other up to a depth. -/
def Block.recordsWithin (depth : Nat) (b : Block) : Except LayoutError (List Record) :=
  let names := Names.ofBlock b
  (Layout.statements ⟨names, [], expand names depth []⟩ b.statements).map (blockRecords b.desc)

/-- Definitions are never in use within each other deeper than there are definitions. -/
theorem Block.recordsWithin_eq (b : Block) {depth : Nat}
    (h : (Names.ofBlock b).definitions.length ≤ depth) : b.recordsWithin depth = b.records := by
  have ha := expand_agree (InUse.none h) (InUse.none (Nat.le_refl _))
  exact congrArg (Except.map (blockRecords b.desc)) (statements_alike ha b.statements)

end KnittingPattern
