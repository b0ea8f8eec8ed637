import KnittingPattern.Proofs.DefinitionNesting
import KnittingPattern.Proofs.ReaderGrammar
import KnittingPattern.Proofs.RecordGrammar

/-! # The stitches of a pattern

The leaves of a pattern are its stitches in the order of the text, with those of a definition in
place of each use of it.  A layout cuts rows at groups, takes definitions with a count for rows of
their own or for rows within rows, and puts braces around these; it keeps every leaf, and the order
of all.  Main theorem: `Block.leaves_records`. -/

namespace KnittingPattern

namespace Fragment

/-- A fragment that begins with a letter is a stitch. -/
theorem isStitch_of_head {f : String} {c : Char} (h : f.toList.head? = some c)
    (hc : Lexeme.isLetter c) : isStitch f := by
  have ho : f ≠ opening := by
    rintro rfl
    cases h
    revert hc
    decide
  have hcl : c ≠ '}' := by
    rintro rfl
    revert hc
    decide
  simp [isStitch, isOpening, isClosing, ho, h, hcl]

@[simp] theorem isStitch_opening : isStitch opening = false := by decide

@[simp] theorem isStitch_closing (times : String) : isStitch (closing times) = false := by
  unfold isStitch isClosing closing
  split <;> simp

end Fragment

theorem exists_letter_of_isWord {s : String} (h : isWord s) :
    ∃ c, s.toList.head? = some c ∧ Lexeme.isLetter c := by
  unfold isWord at h
  split at h
  · rename_i c cs hs
    exact ⟨c, by rw [hs]; rfl, (Bool.and_eq_true_iff.mp h).1⟩
  · cases h

/-- In the grammar names are written as words. -/
theorem Names.InGrammar.isWord_rendering {names : Names} (hn : names.InGrammar) {id : Identifier}
    (hid : isWord id.name) : isWord (names.rendering id) := by
  unfold Names.rendering
  cases hs : names.synonym? id.name with
  | none => exact hid
  | some other => exact hn.synonyms _ (Names.mem_of_last? hs)

theorem Layout.stitchFragment_eq (names : Names) (name : Identifier) (args : List Expr) :
    stitchFragment names name args =
      if Brackets.phrase names args = "" then names.rendering name
      else names.rendering name ++ " " ++ Brackets.phrase names args :=
  rfl

/-- In the grammar a stitch is laid out as one. -/
theorem Layout.isStitch_stitchFragment {names : Names} (hn : names.InGrammar) {name : Identifier}
    (h : isWord name.name) (args : List Expr) :
    Fragment.isStitch (stitchFragment names name args) := by
  obtain ⟨c, hc, hl⟩ := exists_letter_of_isWord (hn.isWord_rendering h)
  refine Fragment.isStitch_of_head (c := c) ?_ hl
  rw [stitchFragment_eq]
  split
  · exact hc
  · simp [hc]

/-- A part of a pattern that has leaves. -/
inductive Part where
  | element (e : Expr)
  | elements (es : List Expr)
  | statement (s : Stmt)
  | statements (ss : List Stmt)

/-- The leaves of a part under given names.  A stitch without a definition is one leaf: its name as
it is written, and behind a blank its arguments, if they are written at all. -/
inductive Leaves (names : Names) : Part → List String → Prop
  | stitch {position : Position} {name : Identifier} {args : List Expr}
    (hd : names.definition? name.name = none) :
    Leaves names (.element (.stitch position name args))
      [if Brackets.phrase names args = "" then names.rendering name
        else names.rendering name ++ " " ++ Brackets.phrase names args]
  | definedStitch {position : Position} {name : Identifier} {args : List Expr} {d : Expr}
    {leaves : List String} (hd : names.definition? name.name = some d)
    (h : Leaves names (.element d) leaves) :
    Leaves names (.element (.stitch position name args)) leaves
  | definedName {id : Identifier} {d : Expr} {leaves : List String}
    (hd : names.definition? id.name = some d) (h : Leaves names (.element d) leaves) :
    Leaves names (.element (.ident id)) leaves
  | size {s : Size} : Leaves names (.element (.size s)) []
  | row {es args : List Expr} {leaves : List String} (h : Leaves names (.elements es) leaves) :
    Leaves names (.element (.row es args)) leaves
  | group {lbrace rbrace : Position} {args : List Expr} {lines : List Stmt} {leaves : List String}
    (h : Leaves names (.statements lines) leaves) :
    Leaves names (.element (.group lbrace rbrace args lines)) leaves
  | synonym {lhs rhs : Identifier} {desc : Description} :
    Leaves names (.statement (.synonym lhs rhs desc)) []
  | define {lhs : Identifier} {rhs : Expr} {desc : Description} :
    Leaves names (.statement (.define lhs rhs desc)) []
  | rowStatement {es args : List Expr} {desc : Description} {leaves : List String}
    (h : Leaves names (.elements es) leaves) :
    Leaves names (.statement (.row es args desc)) leaves
  | groupStatement {lbrace rbrace : Position} {args : List Expr} {lines : List Stmt}
    {desc : Description} {leaves : List String} (h : Leaves names (.statements lines) leaves) :
    Leaves names (.statement (.group lbrace rbrace args lines desc)) leaves
  | block {ss : List Stmt} {start stop : Position} {desc : Description} {leaves : List String}
    (h : Leaves names (.statements ss) leaves) :
    Leaves names (.statement (.block ss start stop desc)) leaves
  | noElements : Leaves names (.elements []) []
  | elements {e : Expr} {es : List Expr} {first rest : List String}
    (h : Leaves names (.element e) first) (hs : Leaves names (.elements es) rest) :
    Leaves names (.elements (e :: es)) (first ++ rest)
  | noStatements : Leaves names (.statements []) []
  | statements {s : Stmt} {ss : List Stmt} {first rest : List String}
    (h : Leaves names (.statement s) first) (hs : Leaves names (.statements ss) rest) :
    Leaves names (.statements (s :: ss)) (first ++ rest)

/-- A part has one sequence of leaves. -/
theorem Leaves.unique {names : Names} {part : Part} {xs ys : List String}
    (hx : Leaves names part xs) (hy : Leaves names part ys) : xs = ys := by
  induction hx generalizing ys with
  | stitch hd =>
    cases hy with
    | stitch => rfl
    | definedStitch hd' => cases hd.symm.trans hd'
  | definedStitch hd _ ih =>
    cases hy with
    | stitch hd' => cases hd.symm.trans hd'
    | definedStitch hd' h =>
      cases hd.symm.trans hd'
      exact ih h
  | definedName hd _ ih =>
    cases hy with
    | definedName hd' h =>
      cases hd.symm.trans hd'
      exact ih h
  | size => cases hy; rfl
  | row _ ih => cases hy with | row h => exact ih h
  | group _ ih => cases hy with | group h => exact ih h
  | synonym => cases hy; rfl
  | define => cases hy; rfl
  | rowStatement _ ih => cases hy with | rowStatement h => exact ih h
  | groupStatement _ ih => cases hy with | groupStatement h => exact ih h
  | block _ ih => cases hy with | block h => exact ih h
  | noElements => cases hy; rfl
  | elements _ _ ih ihs => cases hy with | elements h hs => rw [ih h, ihs hs]
  | noStatements => cases hy; rfl
  | statements _ _ ih ihs => cases hy with | statements h hs => rw [ih h, ihs hs]

namespace Record

/-- The row of a content record. -/
def fragments : Record → List String
  | .content c => c.row
  | _ => []

/-- The stitches of the rows of records, in their order and without the braces. -/
def stitches (rs : List Record) : List String :=
  (rs.flatMap fragments).filter Fragment.isStitch

@[simp] theorem stitches_nil : stitches [] = [] := rfl

@[simp] theorem stitches_append (rs ts : List Record) :
    stitches (rs ++ ts) = stitches rs ++ stitches ts := by
  simp [stitches]

end Record

namespace Piece

/-- The stitches that a piece brings into a pattern. -/
def stitches : Piece → List String
  | .fragment f => [f].filter Fragment.isStitch
  | .args _ => []
  | .records rs => Record.stitches rs

/-- The fragments that a piece brings into a pattern. -/
def fragments : Piece → List String
  | .fragment f => [f]
  | .args _ => []
  | .records rs => rs.flatMap Record.fragments

theorem stitches_eq_filter (p : Piece) : p.stitches = p.fragments.filter Fragment.isStitch := by
  cases p <;> rfl

/-- A row that is left out for being empty has no fragments. -/
theorem fragments_rowRecords (desc args : List String) (c : Content) :
    (rowRecords desc args c).flatMap Record.fragments = c.row := by
  unfold rowRecords
  split
  · rename_i h
    simp only [Content.isEmpty, Bool.and_eq_true, List.isEmpty_iff] at h
    rw [h.2]
    rfl
  · simp [Record.fragments]

/-- However records cut a row, its fragments stay in order. -/
theorem fragments_assemble (desc args : List String) (c : Content) (ps : List Piece) :
    (assemble desc args c ps).flatMap Record.fragments = c.row ++ ps.flatMap fragments := by
  induction ps generalizing c with
  | nil => simp [assemble, fragments_rowRecords]
  | cons p ps ih =>
    cases p with
    | fragment f => simp [assemble, ih, Content.addFragment, fragments]
    | args ts => simp [assemble, ih, Content.addArgs, fragments]
    | records rs => simp [assemble, ih, fragments_rowRecords, Content.empty, fragments]

end Piece

namespace Layout

theorem fragments_statementRecords (desc : Description) (args : List String) (ps : List Piece) :
    (statementRecords desc args ps).flatMap Record.fragments = ps.flatMap Piece.fragments := by
  simp [statementRecords, Piece.fragments_assemble, Content.empty, Piece.fragments]

theorem stitches_statementRecords (desc : Description) (args : List String) (ps : List Piece) :
    Record.stitches (statementRecords desc args ps) = ps.flatMap Piece.stitches := by
  rw [Record.stitches, fragments_statementRecords, List.filter_flatMap]
  exact congrArg (ps.flatMap ·) (funext fun p => p.stitches_eq_filter.symm)

theorem fragments_groupRecords (desc args : List String) (rs : List Record) :
    (groupRecords desc args rs).flatMap Record.fragments = rs.flatMap Record.fragments := by
  simp [groupRecords, Record.fragments]

@[simp] theorem stitches_groupRecords (desc args : List String) (rs : List Record) :
    Record.stitches (groupRecords desc args rs) = Record.stitches rs := by
  rw [Record.stitches, fragments_groupRecords, Record.stitches]

@[simp] theorem stitches_blockRecords (desc : Description) (rs : List Record) :
    Record.stitches (blockRecords desc rs) = Record.stitches rs := by
  simp [blockRecords, Record.stitches, Record.fragments]

theorem stitches_braced (names : Names) (args : List Expr) (ps : List Piece) :
    (braced names args ps).flatMap Piece.stitches = ps.flatMap Piece.stitches := by
  simp [braced, Piece.stitches]

/-- At a place, the pieces of a definition in use have the leaves of the definition. -/
def Place.Orderly (p : Place) : Prop :=
  ∀ inline id d ps, d.isDefinition true → p.expand inline id d = .ok ps →
    Leaves p.names (.element d) (ps.flatMap Piece.stitches)

mutual

theorem element_leaves {p : Place} (hp : p.Orderly) (hn : p.names.InGrammar) (inline : Bool)
    {e : Expr} (he : e.isElement true) {ps : List Piece} (h : element p inline e = .ok ps) :
    Leaves p.names (.element e) (ps.flatMap Piece.stitches) := by
  cases e with
  | stitch position name args =>
    simp only [Expr.isElement, Bool.and_eq_true] at he
    simp only [element] at h
    split at h
    · rename_i d hd
      obtain ⟨qs, hqs, h⟩ := exists_of_bind_ok h
      cases h
      have hleaves := hp _ _ _ _ (hn.isDefinition hd) hqs
      simpa [Piece.stitches] using Leaves.definedStitch hd hleaves
    · rename_i hd
      cases h
      have hs : [Piece.fragment (stitchFragment p.names name args)].flatMap Piece.stitches =
          [stitchFragment p.names name args] := by
        simp [Piece.stitches, isStitch_stitchFragment hn he.1]
      rw [hs]
      exact .stitch hd
  | row es args =>
    simp only [Expr.isElement, Bool.and_eq_true] at he
    obtain ⟨qs, hqs, h⟩ := exists_of_bind_ok h
    cases h
    rw [stitches_braced]
    exact .row (elements_leaves hp hn true he.1 hqs)
  | ident id => cases he
  | size s => cases he
  | group lbrace rbrace args lines => cases he

theorem elements_leaves {p : Place} (hp : p.Orderly) (hn : p.names.InGrammar) (inline : Bool)
    {es : List Expr} (he : Expr.areElements true es) {ps : List Piece}
    (h : elements p inline es = .ok ps) :
    Leaves p.names (.elements es) (ps.flatMap Piece.stitches) := by
  cases es with
  | nil =>
    cases h
    exact .noElements
  | cons e es =>
    simp only [Expr.areElements, Bool.and_eq_true] at he
    obtain ⟨qs, hqs, h⟩ := exists_of_bind_ok h
    obtain ⟨rs, hrs, h⟩ := exists_of_bind_ok h
    cases h
    rw [List.flatMap_append]
    exact .elements (element_leaves hp hn inline he.1 hqs) (elements_leaves hp hn inline he.2 hrs)

end

mutual

theorem statement_leaves {p : Place} (hp : p.Orderly) (hn : p.names.InGrammar) {s : Stmt}
    (hs : s.isLine true) {rs : List Record} (h : statement p s = .ok rs) :
    Leaves p.names (.statement s) (Record.stitches rs) := by
  cases s with
  | synonym lhs rhs desc =>
    cases h
    exact .synonym
  | define lhs rhs desc =>
    cases h
    exact .define
  | row es args desc =>
    simp only [Stmt.isLine, Bool.and_eq_true] at hs
    simp only [statement] at h
    split at h
    · rename_i id es' args' hr
      obtain ⟨ps, hps, h⟩ := exists_of_bind_ok h
      cases h
      rw [stitches_statementRecords]
      obtain ⟨-, hes, hd⟩ := exists_of_loneRow? hr
      have hleaves : Leaves p.names (.element (.row es' args')) (ps.flatMap Piece.stitches) := by
        cases hp _ _ _ _ (hn.isDefinition_row hd) hps with
        | row hl => exact .row hl
      obtain rfl | ⟨position, rfl⟩ := hes
      · simpa using Leaves.rowStatement (.elements (.definedName hd hleaves) .noElements)
      · simpa using Leaves.rowStatement (.elements (.definedStitch hd hleaves) .noElements)
    · obtain ⟨ps, hps, h⟩ := exists_of_bind_ok h
      cases h
      rw [stitches_statementRecords]
      exact .rowStatement (elements_leaves hp hn false hs.1 hps)
  | group lbrace rbrace args lines desc =>
    simp only [Stmt.isLine, Bool.and_eq_true] at hs
    obtain ⟨qs, hqs, h⟩ := exists_of_bind_ok h
    cases h
    rw [stitches_groupRecords]
    exact .groupStatement (statements_leaves hp hn hs.1 hqs)
  | block ss start stop desc => cases hs

theorem statements_leaves {p : Place} (hp : p.Orderly) (hn : p.names.InGrammar) {ss : List Stmt}
    (hs : Stmt.areLines true ss) {rs : List Record} (h : statements p ss = .ok rs) :
    Leaves p.names (.statements ss) (Record.stitches rs) := by
  cases ss with
  | nil =>
    cases h
    exact .noStatements
  | cons s ss =>
    simp only [Stmt.areLines, Bool.and_eq_true] at hs
    obtain ⟨qs, hqs, h⟩ := exists_of_bind_ok h
    obtain ⟨ts, hts, h⟩ := exists_of_bind_ok h
    cases h
    rw [Record.stitches_append]
    exact .statements (statement_leaves hp hn hs.1 hqs) (statements_leaves hp hn hs.2 hts)

end

theorem definitionPieces_leaves {p : Place} (hp : p.Orderly) (hn : p.names.InGrammar)
    (inline : Bool) {d : Expr} (hd : d.isDefinition true) {ps : List Piece}
    (h : definitionPieces p inline d = .ok ps) :
    Leaves p.names (.element d) (ps.flatMap Piece.stitches) := by
  cases d with
  | row es args =>
    simp only [Expr.isDefinition, Bool.and_eq_true] at hd
    cases args with
    | nil => exact .row (elements_leaves hp hn inline hd.1.2 h)
    | cons arg args =>
      obtain ⟨qs, hqs, h⟩ := exists_of_bind_ok h
      cases h
      rw [stitches_braced]
      exact .row (elements_leaves hp hn true hd.1.2 hqs)
  | group lbrace rbrace args lines =>
    simp only [Expr.isDefinition, Bool.and_eq_true] at hd
    simp only [definitionPieces, element] at h
    split at h
    · cases h
    · obtain ⟨rs, hrs, h⟩ := exists_of_bind_ok h
      cases h
      simpa [Piece.stitches] using Leaves.group (statements_leaves hp hn hd.1 hrs)
  | ident id => cases hd
  | size s => cases hd
  | stitch position name args => cases hd

/-- However deep definitions are in use within each other, their pieces have their leaves. -/
theorem expand_leaves {names : Names} (hn : names.InGrammar) (unused : Nat)
    (within : List String) : Place.Orderly ⟨names, within, expand names unused within⟩ :=
  expand_induction (Q := fun d ps => Leaves names (.element d) (ps.flatMap Piece.stitches))
    (fun w f hf inline _ _ hd h => @definitionPieces_leaves ⟨names, w, f⟩ hf hn inline _ hd _ h)
    unused within

end Layout

/-- A pattern that is read and can be laid out has one sequence of leaves, and these are the
stitches of its records. -/
theorem Block.leaves_records {texts : List String} {b : Block} {rs : List Record}
    (h : Pattern.ofSources texts = .ok b) (hr : b.records = .ok rs) (leaves : List String) :
    Leaves (Names.ofBlock b) (.statements b.statements) leaves ↔ leaves = Record.stitches rs := by
  have hb := Pattern.areLines_of_ofSources h
  have hn := Names.inGrammar_ofBlock hb
  obtain ⟨ss, hss, hr⟩ := exists_of_bind_ok (f := fun ss => .ok (Layout.blockRecords b.desc ss)) hr
  cases hr
  have hl := Layout.statements_leaves (Layout.expand_leaves hn _ []) hn hb hss
  rw [Layout.stitches_blockRecords]
  constructor
  · exact fun h => h.unique hl
  · rintro rfl
    exact hl

/-- A row that is laid out as a definition with a count and cut by one that is a group. -/
def Block.countedCut : Block :=
  let stitch (p : Position) (s : String) (args : List Expr) : Expr := .stitch p ⟨p, s⟩ args
  let count (p : Position) (n : Int) : Expr := .size ⟨p, .whole n, .count, false⟩
  ⟨[.synonym ⟨⟨1, 1⟩, "k"⟩ ⟨⟨1, 6⟩, "knit"⟩ .none,
    .define ⟨⟨2, 1⟩, "g"⟩ (.group ⟨2, 5⟩ ⟨4, 1⟩ [] [.row [stitch ⟨3, 1⟩ "p" []] [] .none]) .none,
    .define ⟨⟨5, 1⟩, "m"⟩ (.row [stitch ⟨5, 6⟩ "k" [], stitch ⟨5, 8⟩ "g" [],
      .row [stitch ⟨5, 11⟩ "p" [count ⟨5, 13⟩ 2]] []] [count ⟨5, 18⟩ 3]) .none,
    .row [stitch ⟨6, 1⟩ "m" []] [] .none], ⟨1, 1⟩, ⟨7, 0⟩, .none⟩

/-- The records of `countedCut`: both parts of the row that is cut keep its count. -/
def Block.countedCutRecords : List Record := [.startBlock [],
  .startRow [] ["3"], .content ⟨[], ["3"], ["knit"]⟩, .endRow,
  .startGroup [] [], .startRow [] [], .content ⟨[], [], ["p"]⟩, .endRow, .endGroup,
  .startRow [] ["3"], .content ⟨[], [], ["\x7b", "p 2", "\x7d"]⟩, .endRow, .endBlock]

theorem Block.leaves_records_countedCut :
    Pattern.ofSources ["k := knit\ng = \x7b\np\n\x7d\nm = \x7bk g \x7bp(2)\x7d\x7d(3)\nm\n"] =
      .ok Block.countedCut ∧
    Block.countedCut.records = .ok Block.countedCutRecords ∧
    ∀ leaves, Leaves (Names.ofBlock Block.countedCut) (.statements Block.countedCut.statements)
      leaves ↔ leaves = ["knit", "p", "p 2"] := by
  have h : Pattern.ofSources
      ["k := knit\ng = \x7b\np\n\x7d\nm = \x7bk g \x7bp(2)\x7d\x7d(3)\nm\n"] =
        .ok Block.countedCut := rfl
  have hr : Block.countedCut.records = .ok Block.countedCutRecords := rfl
  have hs : Record.stitches Block.countedCutRecords = ["knit", "p", "p 2"] := by decide
  exact ⟨h, hr, hs ▸ Block.leaves_records h hr⟩

end KnittingPattern
