import KnittingPattern.Proofs.NestedLayout
import KnittingPattern.Proofs.PatternParts

/-! # Where descriptions come from

The descriptions among the records of a pattern are those of its statements: a row record has that of
a row statement, and a group record that of a group statement, or none if the group is a definition.
Main theorem: `Block.records_described`. -/

namespace KnittingPattern

mutual

/-- The statements within an expression. -/
def Expr.statements : Expr → List Stmt
  | .row es _ => Expr.allStatements es
  | .group _ _ _ lines => Stmt.allStatements lines
  | .ident _ => []
  | .size _ => []
  | .stitch _ _ _ => []

def Expr.allStatements : List Expr → List Stmt
  | [] => []
  | e :: es => e.statements ++ Expr.allStatements es

/-- A statement and those within it. -/
def Stmt.statements : Stmt → List Stmt
  | .synonym lhs rhs desc => [.synonym lhs rhs desc]
  | .define lhs rhs desc => .define lhs rhs desc :: rhs.statements
  | .row es args desc => .row es args desc :: Expr.allStatements es
  | .group lbrace rbrace args lines desc =>
    .group lbrace rbrace args lines desc :: Stmt.allStatements lines
  | .block ss start stop desc => .block ss start stop desc :: Stmt.allStatements ss

def Stmt.allStatements : List Stmt → List Stmt
  | [] => []
  | s :: ss => s.statements ++ Stmt.allStatements ss

end

section

variable {q : Stmt → Bool}

mutual

theorem Expr.everywhere_of_statements {e : Expr} (h : ∀ t ∈ e.statements, q t) :
    e.everywhere (fun _ => true) q := by
  cases e with
  | row es args => simpa [Expr.everywhere] using Expr.allEverywhere_of_statements h
  | group lbrace rbrace args lines =>
    simpa [Expr.everywhere] using Stmt.allEverywhere_of_statements h
  | ident id => simp [Expr.everywhere]
  | size s => simp [Expr.everywhere]
  | stitch position name args => simp [Expr.everywhere]

theorem Expr.allEverywhere_of_statements {es : List Expr} (h : ∀ t ∈ Expr.allStatements es, q t) :
    Expr.allEverywhere (fun _ => true) q es := by
  cases es with
  | nil => simp [Expr.allEverywhere]
  | cons e es =>
    obtain ⟨he, hes⟩ := List.forall_mem_append.mp h
    simp [Expr.allEverywhere, Expr.everywhere_of_statements he, Expr.allEverywhere_of_statements hes]

theorem Stmt.everywhere_of_statements {s : Stmt} (h : ∀ t ∈ s.statements, q t) :
    s.everywhere (fun _ => true) q := by
  cases s with
  | synonym lhs rhs desc => simpa [Stmt.everywhere, Stmt.statements] using h
  | define lhs rhs desc =>
    obtain ⟨hs, hrhs⟩ := List.forall_mem_cons.mp h
    simp [Stmt.everywhere, hs, Expr.everywhere_of_statements hrhs]
  | row es args desc =>
    obtain ⟨hs, hes⟩ := List.forall_mem_cons.mp h
    simp [Stmt.everywhere, hs, Expr.allEverywhere_of_statements hes]
  | group lbrace rbrace args lines desc =>
    obtain ⟨hs, hlines⟩ := List.forall_mem_cons.mp h
    simp [Stmt.everywhere, hs, Stmt.allEverywhere_of_statements hlines]
  | block ss start stop desc =>
    obtain ⟨hs, hss⟩ := List.forall_mem_cons.mp h
    simp [Stmt.everywhere, hs, Stmt.allEverywhere_of_statements hss]

theorem Stmt.allEverywhere_of_statements {ss : List Stmt} (h : ∀ t ∈ Stmt.allStatements ss, q t) :
    Stmt.allEverywhere (fun _ => true) q ss := by
  cases ss with
  | nil => simp [Stmt.allEverywhere]
  | cons s ss =>
    obtain ⟨hs, hss⟩ := List.forall_mem_append.mp h
    simp [Stmt.allEverywhere, Stmt.everywhere_of_statements hs, Stmt.allEverywhere_of_statements hss]

end

end

/-- The descriptions among records are those of row and group statements with a property. -/
structure Record.Described (q : Stmt → Bool) (rs : List Record) : Prop where
  row : ∀ desc args, .startRow desc args ∈ rs →
    ∃ es args' d, q (.row es args' d) ∧ desc = d.lines
  group : ∀ desc args, .startGroup desc args ∈ rs → desc ≠ [] →
    ∃ lbrace rbrace args' lines d, q (.group lbrace rbrace args' lines d) ∧ desc = d.lines

open Record (Described)

variable {q : Stmt → Bool}

namespace Record.Described

variable {rs ts : List Record}

theorem nil : Described q [] := ⟨by simp, by simp⟩

theorem append (h : Described q rs) (ht : Described q ts) : Described q (rs ++ ts) where
  row desc args hm := (List.mem_append.mp hm).elim (h.row desc args) (ht.row desc args)
  group desc args hm := (List.mem_append.mp hm).elim (h.group desc args) (ht.group desc args)

theorem rowRecords {es args' : List Expr} {desc : Description}
    (hq : q (.row es args' desc)) (args : List String) (c : Content) :
    Described q (Piece.rowRecords desc.lines args c) := by
  unfold Piece.rowRecords
  split
  · exact nil
  · refine ⟨fun lines texts hm => ?_, by simp⟩
    obtain ⟨rfl, -⟩ : lines = desc.lines ∧ texts = args := by simpa using hm
    exact ⟨es, args', desc, hq, rfl⟩

theorem groupRecords {desc : List String} (args : List String) (h : Described q rs)
    (hd : desc ≠ [] →
      ∃ lbrace rbrace args' lines d, q (.group lbrace rbrace args' lines d) ∧ desc = d.lines) :
    Described q (Layout.groupRecords desc args rs) := by
  refine ⟨fun lines texts hm => ?_, fun lines texts hm hne => ?_⟩
  · exact h.row lines texts (by simpa [Layout.groupRecords] using hm)
  · obtain ⟨rfl, -⟩ | hm : (lines = desc ∧ texts = args) ∨ .startGroup lines texts ∈ rs := by
      simpa [Layout.groupRecords] using hm
    · exact hd hne
    · exact h.group lines texts hm hne

end Record.Described

namespace Piece

def Described (q : Stmt → Bool) (ps : List Piece) : Prop :=
  ∀ rs, .records rs ∈ ps → Record.Described q rs

theorem Described.append {ps qs : List Piece} (hp : Piece.Described q ps)
    (hq : Piece.Described q qs) : Piece.Described q (ps ++ qs) := fun rs hrs =>
  (List.mem_append.mp hrs).elim (hp rs) (hq rs)

theorem Described.assemble {es args' : List Expr} {desc : Description}
    (hq : q (.row es args' desc)) (args : List String) (c : Content) {ps : List Piece}
    (hp : Piece.Described q ps) : Record.Described q (assemble desc.lines args c ps) := by
  induction ps generalizing c with
  | nil => exact .rowRecords hq args c
  | cons p ps ih =>
    have hps : Piece.Described q ps := fun rs hrs => hp rs (List.mem_cons_of_mem p hrs)
    cases p with
    | fragment f => exact ih _ hps
    | args ts => exact ih _ hps
    | records rs =>
      have hrs : Record.Described q rs := hp rs List.mem_cons_self
      exact (Record.Described.rowRecords hq args c).append (hrs.append (ih _ hps))

end Piece

namespace Layout

/-- At a place, definitions have the descriptions of the statements within them. -/
def Place.Describes (q : Stmt → Bool) (p : Place) : Prop :=
  ∀ inline id d ps, d.everywhere (fun _ => true) q → p.expand inline id d = .ok ps →
    Piece.Described q ps

section

variable {p : Place}

mutual

theorem element_described (hp : p.Describes q) (hn : p.names.Everywhere (fun _ => true) q)
    {inline : Bool} {e : Expr} (he : e.everywhere (fun _ => true) q) {ps : List Piece}
    (h : element p inline e = .ok ps) : Piece.Described q ps := by
  cases e with
  | ident id =>
    simp only [element] at h
    split at h
    · rename_i d hd
      exact hp _ _ _ _ (hn.of_definition hd) h
    · cases h
  | size s =>
    cases h
    simp [Piece.Described]
  | stitch position name args =>
    simp only [element] at h
    split at h
    · rename_i d hd
      obtain ⟨qs, hqs, h⟩ := exists_of_bind_ok h
      cases h
      have hdef := hp _ _ _ _ (hn.of_definition hd) hqs
      simpa [Piece.Described] using hdef
    · cases h
      simp [Piece.Described]
  | row es args =>
    simp only [Expr.everywhere, Bool.and_eq_true] at he
    obtain ⟨qs, hqs, h⟩ := exists_of_bind_ok h
    cases h
    have hes := elements_described hp hn he.2 hqs
    simpa [Piece.Described, braced] using hes
  | group lbrace rbrace args lines =>
    simp only [Expr.everywhere, Bool.and_eq_true] at he
    simp only [element] at h
    split at h
    · cases h
    · obtain ⟨rs, hrs, h⟩ := exists_of_bind_ok h
      cases h
      have hlines := statements_described hp hn he.2 hrs
      have hgroup : Described q (groupRecords [] (Brackets.texts p.names args) rs) :=
        hlines.groupRecords _ (by simp)
      simpa [Piece.Described] using hgroup

theorem elements_described (hp : p.Describes q) (hn : p.names.Everywhere (fun _ => true) q)
    {inline : Bool} {es : List Expr} (he : Expr.allEverywhere (fun _ => true) q es)
    {ps : List Piece} (h : elements p inline es = .ok ps) : Piece.Described q ps := by
  cases es with
  | nil =>
    cases h
    simp [Piece.Described]
  | cons e es =>
    simp only [Expr.allEverywhere, Bool.and_eq_true] at he
    obtain ⟨qs, hqs, h⟩ := exists_of_bind_ok h
    obtain ⟨rs, hrs, h⟩ := exists_of_bind_ok h
    cases h
    exact (element_described hp hn he.1 hqs).append (elements_described hp hn he.2 hrs)

theorem statement_described (hp : p.Describes q) (hn : p.names.Everywhere (fun _ => true) q)
    {s : Stmt} (hs : s.everywhere (fun _ => true) q) {rs : List Record}
    (h : statement p s = .ok rs) : Described q rs := by
  cases s with
  | synonym lhs rhs desc =>
    cases h
    exact .nil
  | define lhs rhs desc =>
    cases h
    exact .nil
  | row es args desc =>
    simp only [Stmt.everywhere, Bool.and_eq_true] at hs
    simp only [statement] at h
    split at h
    · rename_i id es' args' hr
      obtain ⟨ps, hps, h⟩ := exists_of_bind_ok h
      cases h
      obtain ⟨-, -, hname⟩ := exists_of_loneRow? hr
      have hrow : (Expr.row es' []).everywhere (fun _ => true) q := by
        simpa [Expr.everywhere] using hn.of_definition hname
      have hps' := hp _ _ _ _ hrow hps
      exact Piece.Described.assemble hs.1 _ _ (by simpa [Piece.Described] using hps')
    · obtain ⟨ps, hps, h⟩ := exists_of_bind_ok h
      cases h
      have hps' := elements_described hp hn hs.2 hps
      exact Piece.Described.assemble hs.1 _ _ (by simpa [Piece.Described] using hps')
  | group lbrace rbrace args lines desc =>
    simp only [Stmt.everywhere, Bool.and_eq_true] at hs
    obtain ⟨qs, hqs, h⟩ := exists_of_bind_ok h
    cases h
    exact (statements_described hp hn hs.2 hqs).groupRecords _ fun _ => ⟨_, _, _, _, _, hs.1, rfl⟩
  | block ss start stop desc =>
    simp only [Stmt.everywhere, Bool.and_eq_true] at hs
    obtain ⟨qs, hqs, h⟩ := exists_of_bind_ok h
    cases h
    have hss := statements_described hp hn hs.2 hqs
    exact ⟨by simpa [blockRecords] using hss.row, by simpa [blockRecords] using hss.group⟩

theorem statements_described (hp : p.Describes q) (hn : p.names.Everywhere (fun _ => true) q)
    {ss : List Stmt} (hs : Stmt.allEverywhere (fun _ => true) q ss) {rs : List Record}
    (h : statements p ss = .ok rs) : Described q rs := by
  cases ss with
  | nil =>
    cases h
    exact .nil
  | cons s ss =>
    simp only [Stmt.allEverywhere, Bool.and_eq_true] at hs
    obtain ⟨qs, hqs, h⟩ := exists_of_bind_ok h
    obtain ⟨ts, hts, h⟩ := exists_of_bind_ok h
    cases h
    exact (statement_described hp hn hs.1 hqs).append (statements_described hp hn hs.2 hts)

end

theorem definitionPieces_described (hp : p.Describes q)
    (hn : p.names.Everywhere (fun _ => true) q) {inline : Bool} {d : Expr}
    (hd : d.everywhere (fun _ => true) q) {ps : List Piece}
    (h : definitionPieces p inline d = .ok ps) : Piece.Described q ps := by
  unfold definitionPieces at h
  split at h
  · simp only [Expr.everywhere, Bool.and_eq_true] at hd
    exact elements_described hp hn hd.2 h
  · exact element_described hp hn hd h

end

theorem expand_describes {names : Names} (hn : names.Everywhere (fun _ => true) q) (unused : Nat)
    (within : List String) : Place.Describes q ⟨names, within, expand names unused within⟩ := by
  induction unused generalizing within with
  | zero =>
    intro inline id d ps _ h
    simp only [expand] at h
    split at h <;> cases h
  | succ n ih =>
    intro inline id d ps hd h
    simp only [expand] at h
    split at h
    · cases h
    · exact definitionPieces_described (ih _) hn hd h

end Layout

/-- A row statement of the pattern has these lines as its description. -/
def Block.DescribesRow (b : Block) (lines : List String) : Prop :=
  ∃ es args d, .row es args d ∈ Stmt.allStatements b.statements ∧ lines = d.lines

/-- A group statement of the pattern has these lines as its description. -/
def Block.DescribesGroup (b : Block) (lines : List String) : Prop :=
  ∃ lbrace rbrace args ss d,
    .group lbrace rbrace args ss d ∈ Stmt.allStatements b.statements ∧ lines = d.lines

/-- The descriptions among the records of a pattern are those of its statements. -/
theorem Block.records_described {b : Block} {rs : List Record} (h : b.records = .ok rs) :
    (∀ desc args, .startRow desc args ∈ rs → b.DescribesRow desc) ∧
    (∀ desc args, .startGroup desc args ∈ rs → desc ≠ [] → b.DescribesGroup desc) := by
  classical
  let q : Stmt → Bool := fun t => decide (t ∈ Stmt.allStatements b.statements)
  have hs : Stmt.allEverywhere (fun _ => true) q b.statements :=
    Stmt.allEverywhere_of_statements fun t ht => decide_eq_true ht
  have hn : (Names.ofBlock b).Everywhere (fun _ => true) q := Names.everywhere_ofStmts hs
  obtain ⟨ss, hss, h⟩ := exists_of_bind_ok (f := fun ss => .ok (Layout.blockRecords b.desc ss)) h
  cases h
  have hd := Layout.statements_described (Layout.expand_describes hn _ []) hn hs hss
  constructor
  · intro desc args hm
    simpa [q, DescribesRow] using hd.row desc args (by simpa [Layout.blockRecords] using hm)
  · intro desc args hm hne
    simpa [q, DescribesGroup] using hd.group desc args (by simpa [Layout.blockRecords] using hm) hne

end KnittingPattern
