import KnittingPattern.Proofs.NestedLayout
import KnittingPattern.Proofs.PatternParts
import KnittingPattern.Proofs.StitchSequence

/-! # How rows are woven

A row that is laid out is made of stitches and of rows between braces.  A group cuts it outside all
braces, so each part that groups leave is such a row too.  A row without any stitch has nothing
between some of its braces, and that is so in the pattern.  Main theorem: `Block.weave_records`. -/

namespace KnittingPattern

namespace Row

/-- Rows of stitches and of rows between braces.  There may be nothing between braces only if the
rows are `hollow`. -/
inductive Woven (hollow : Bool) : List String → Prop
  | nil : Woven hollow []
  | stitch {row : List String} {f : String} (h : Woven hollow row) (hf : Fragment.isStitch f) :
    Woven hollow (row ++ [f])
  | braces {row inner : List String} {times : String} (h : Woven hollow row)
    (hi : Woven hollow inner) (hn : hollow = false → inner ≠ []) :
    Woven hollow (row ++ Fragment.opening :: (inner ++ [Fragment.closing times]))

namespace Woven

variable {hollow : Bool} {row : List String}

/-- Between braces that are not hollow there is a stitch, however deep. -/
theorem any_isStitch (h : Woven false row) (hr : row ≠ []) : row.any Fragment.isStitch := by
  induction h with
  | nil => exact absurd rfl hr
  | stitch _ hf => simp [hf]
  | braces _ _ hn _ ih => simp [ih (hn rfl)]

/-- A row without stitches begins with a brace that opens. -/
theorem head?_eq_opening (h : Woven hollow row) (hr : row ≠ [])
    (hs : row.any Fragment.isStitch = false) : row.head? = some Fragment.opening := by
  induction h with
  | nil => exact absurd rfl hr
  | stitch _ hf => simp [hf] at hs
  | @braces row inner times _ _ _ ih =>
    cases row with
    | nil => rfl
    | cons f row =>
      rw [List.any_append, Bool.or_eq_false_iff] at hs
      exact ih (List.cons_ne_nil f row) hs.1

end Woven
end Row

open Row (Woven)

/-- All rows of content records are woven. -/
def Record.Weave (hollow : Bool) (rs : List Record) : Prop :=
  ∀ c, .content c ∈ rs → Woven hollow c.row

namespace Record.Weave

variable {hollow : Bool} {rs ts : List Record}

theorem nil : Weave hollow [] := by simp [Weave]

theorem append (h : Weave hollow rs) (ht : Weave hollow ts) : Weave hollow (rs ++ ts) := fun c hc =>
  (List.mem_append.mp hc).elim (h c) (ht c)

theorem groupRecords (desc args : List String) (h : Weave hollow rs) :
    Weave hollow (Layout.groupRecords desc args rs) := by
  simpa [Weave, Layout.groupRecords] using h

end Record.Weave

namespace Piece

/-- The parts that records leave of a row; `row` is what has been collected of the first one. -/
def parts (row : List String) : List Piece → List (List String)
  | [] => [row]
  | .fragment f :: ps => parts (row ++ [f]) ps
  | .args _ :: ps => parts row ps
  | .records _ :: ps => row :: parts [] ps

/-- Pieces behind others go on with the last part. -/
theorem parts_append (row : List String) (ps qs : List Piece) :
    ∃ before last, parts row ps = before ++ [last] ∧
      parts row (ps ++ qs) = before ++ parts last qs := by
  induction ps generalizing row with
  | nil => exact ⟨[], row, rfl, rfl⟩
  | cons p ps ih =>
    cases p with
    | fragment f => exact ih _
    | args ts => exact ih _
    | records rs =>
      obtain ⟨before, last, hps, happ⟩ := ih []
      exact ⟨row :: before, last, by simp [parts, hps], by simp [parts, happ]⟩

/-- Pieces without records go on with the part that is collected. -/
theorem exists_parts_eq {ps : List Piece} (h : ∀ rs, .records rs ∉ ps) :
    ∃ texts : List String, (∀ row qs, parts row (ps ++ qs) = parts (row ++ texts) qs) ∧
      ((∃ f, .fragment f ∈ ps) → texts ≠ []) := by
  induction ps with
  | nil => exact ⟨[], by simp, by simp⟩
  | cons p ps ih =>
    obtain ⟨texts, hparts, hne⟩ := ih fun rs hrs => h rs (List.mem_cons_of_mem p hrs)
    cases p with
    | fragment f => exact ⟨f :: texts, by simp [parts, hparts], by simp⟩
    | args ts => exact ⟨texts, by simp [parts, hparts], by simpa using hne⟩
    | records rs => exact absurd List.mem_cons_self (h rs)

/-- The rows that pieces are assembled to are their parts. -/
theorem mem_parts_of_mem_assemble {desc args : List String} {c c' : Content} {ps : List Piece}
    (h : .content c' ∈ assemble desc args c ps) :
    c'.row ∈ parts c.row ps ∨ ∃ rs, .records rs ∈ ps ∧ .content c' ∈ rs := by
  have hrow {c : Content} (h : .content c' ∈ rowRecords desc args c) : c'.row = c.row := by
    unfold rowRecords at h
    split at h
    · cases h
    · have hc : c' = c := by simpa using h
      rw [hc]
  induction ps generalizing c with
  | nil => exact .inl (List.mem_singleton.mpr (hrow h))
  | cons p ps ih =>
    cases p with
    | fragment f => exact (ih h).imp_right fun ⟨rs, hrs, hc⟩ => ⟨rs, List.mem_cons_of_mem _ hrs, hc⟩
    | args ts => exact (ih h).imp_right fun ⟨rs, hrs, hc⟩ => ⟨rs, List.mem_cons_of_mem _ hrs, hc⟩
    | records rs =>
      rcases List.mem_append.mp h with h | h
      · exact .inl (hrow h ▸ List.mem_cons_self)
      · rcases List.mem_append.mp h with h | h
        · exact .inr ⟨rs, List.mem_cons_self, h⟩
        · exact (ih h).imp (List.mem_cons_of_mem _) fun ⟨rs, hrs, hc⟩ =>
            ⟨rs, List.mem_cons_of_mem _ hrs, hc⟩

/-- Pieces that go on weaving a row.  Within a row there are no records among them.  If they are
`filled`, they are not arguments alone. -/
structure Weave (hollow inline : Bool) (filled : Prop) (ps : List Piece) : Prop where
  records : ∀ rs, .records rs ∈ ps → inline = false ∧ Record.Weave hollow rs
  parts : ∀ row, Woven hollow row → ∀ part ∈ parts row ps, Woven hollow part
  filled : filled → ∃ q ∈ ps, ∀ ts, q ≠ .args ts

namespace Weave

variable {hollow inline : Bool} {filled filled' : Prop} {ps qs : List Piece}

theorem nil : Weave hollow inline False [] := ⟨by simp, by simp [Piece.parts], False.elim⟩

theorem append (hp : Weave hollow inline filled ps) (hq : Weave hollow inline filled' qs) :
    Weave hollow inline (filled ∨ filled') (ps ++ qs) where
  records rs hrs := (List.mem_append.mp hrs).elim (hp.records rs) (hq.records rs)
  parts row hr part h := by
    obtain ⟨before, last, hps, happ⟩ := parts_append row ps qs
    have hwoven := hp.parts row hr
    simp only [hps, List.mem_append, List.mem_singleton] at hwoven
    rw [happ] at h
    rcases List.mem_append.mp h with h | h
    · exact hwoven _ (.inl h)
    · exact hq.parts last (hwoven _ (.inr rfl)) part h
  filled h := by
    rcases h with h | h
    · obtain ⟨q, hq, ha⟩ := hp.filled h
      exact ⟨q, List.mem_append_left _ hq, ha⟩
    · obtain ⟨q, hq, ha⟩ := hq.filled h
      exact ⟨q, List.mem_append_right _ hq, ha⟩

theorem args (ts : List String) (h : Weave hollow inline filled ps) :
    Weave hollow inline filled (.args ts :: ps) where
  records rs hrs := h.records rs (by simpa using hrs)
  parts := h.parts
  filled hf := (h.filled hf).imp fun q hq => ⟨List.mem_cons_of_mem _ hq.1, hq.2⟩

theorem stitch {f : String} (hf : Fragment.isStitch f) :
    Weave hollow inline True [.fragment f] where
  records := by simp
  parts row hr := by simpa [Piece.parts] using hr.stitch hf
  filled _ := by simp

theorem group {rs : List Record} (h : Record.Weave hollow rs) :
    Weave hollow false True [.records rs] where
  records := by simpa using h
  parts row hr := by simpa [Piece.parts] using ⟨hr, Woven.nil⟩
  filled _ := by simp

/-- A row between braces is one fragment after the other. -/
theorem braced (h : Weave hollow true filled ps) (hf : hollow = false → filled) (names : Names)
    (args : List Expr) : Weave hollow inline True (Layout.braced names args ps) := by
  have hrs (rs : List Record) : .records rs ∉ ps := fun hrs => by simpa using (h.records rs hrs).1
  obtain ⟨texts, hparts, hne⟩ := exists_parts_eq hrs
  have hinner : Woven hollow texts := by
    have hps : Piece.parts [] ps = [texts] := by simpa [Piece.parts] using hparts [] []
    exact h.parts [] .nil texts (by simp [hps])
  refine ⟨by simp [Layout.braced, hrs], fun row hr part hpart => ?_, fun _ => ?_⟩
  · have hbraces : part = row ++ Fragment.opening ::
        (texts ++ [Fragment.closing (Brackets.phrase names args)]) := by
      simpa [Layout.braced, Piece.parts, hparts] using hpart
    rw [hbraces]
    refine hr.braces hinner fun hh => hne ?_
    obtain ⟨q, hq, ha⟩ := h.filled (hf hh)
    cases q with
    | fragment f => exact ⟨f, hq⟩
    | args ts => exact absurd rfl (ha ts)
    | records rs => exact absurd hq (hrs rs)
  · exact ⟨_, List.mem_cons_self, by simp⟩

theorem mono (h : Weave hollow inline filled ps) (hf : filled' → filled) :
    Weave hollow inline filled' ps :=
  ⟨h.records, h.parts, h.filled ∘ hf⟩

/-- What the pieces of a row statement are assembled to is woven. -/
theorem assemble (h : Weave hollow inline filled ps) (desc args : List String) {c : Content}
    (hc : Woven hollow c.row) : Record.Weave hollow (assemble desc args c ps) := by
  intro c' hc'
  rcases mem_parts_of_mem_assemble hc' with hp | ⟨rs, hrs, hc'⟩
  · exact h.parts _ hc _ hp
  · exact (h.records rs hrs).2 c' hc'

theorem statementRecords (h : Weave hollow inline filled ps) (desc : Description)
    (args : List String) : Record.Weave hollow (Layout.statementRecords desc args ps) :=
  (h.args args).assemble _ _ .nil

end Weave
end Piece

/-- A row that is not empty. -/
def Expr.isFilled : Expr → Bool
  | .row es _ => !es.isEmpty
  | _ => true

namespace Layout

open Piece (Weave)

/-- If rows are not hollow, none within the expression is empty. -/
def Filled (hollow : Bool) (e : Expr) : Prop :=
  hollow = false → e.everywhere Expr.isFilled fun _ => true

def AllFilled (hollow : Bool) (es : List Expr) : Prop :=
  hollow = false → Expr.allEverywhere Expr.isFilled (fun _ => true) es

def LinesFilled (hollow : Bool) (ss : List Stmt) : Prop :=
  hollow = false → Stmt.allEverywhere Expr.isFilled (fun _ => true) ss

/-- At a place, definitions go on weaving the row they are used in. -/
def Place.Weaves (hollow : Bool) (p : Place) : Prop :=
  ∀ inline id d ps, d.isDefinition true → Filled hollow d → p.expand inline id d = .ok ps →
    Weave hollow inline True ps

/-- The definitions of a pattern have no empty rows, if rows are not hollow. -/
def Defines (hollow : Bool) (names : Names) : Prop :=
  ∀ name d, names.definition? name = some d → Filled hollow d

section

variable {hollow : Bool} {p : Place}

mutual

theorem element_weave (hp : p.Weaves hollow) (hn : p.names.InGrammar) (hd : Defines hollow p.names)
    (inline : Bool) {e : Expr} (he : e.isElement true) (hf : Filled hollow e) {ps : List Piece}
    (h : element p inline e = .ok ps) : Weave hollow inline True ps := by
  cases e with
  | stitch position name args =>
    simp only [Expr.isElement, Bool.and_eq_true] at he
    simp only [element] at h
    split at h
    · rename_i d hname
      obtain ⟨qs, hqs, h⟩ := exists_of_bind_ok h
      cases h
      exact (hp _ _ _ _ (hn.isDefinition hname) (hd _ _ hname) hqs).args _
    · cases h
      exact .stitch (isStitch_stitchFragment hn he.1 args)
  | row es args =>
    simp only [Expr.isElement, Bool.and_eq_true] at he
    obtain ⟨qs, hqs, h⟩ := exists_of_bind_ok h
    cases h
    simp only [Filled, Expr.everywhere, Expr.isFilled, Bool.and_eq_true] at hf
    refine (elements_weave hp hn hd true he.1 (fun hh => (hf hh).2) hqs).braced (fun hh => ?_) _ _
    simpa using (hf hh).1
  | ident id => cases he
  | size s => cases he
  | group lbrace rbrace args lines => cases he

theorem elements_weave (hp : p.Weaves hollow) (hn : p.names.InGrammar)
    (hd : Defines hollow p.names) (inline : Bool) {es : List Expr}
    (he : Expr.areElements true es) (hf : AllFilled hollow es) {ps : List Piece}
    (h : elements p inline es = .ok ps) : Weave hollow inline (es ≠ []) ps := by
  cases es with
  | nil =>
    cases h
    exact Weave.nil.mono fun h => h rfl
  | cons e es =>
    simp only [Expr.areElements, Bool.and_eq_true] at he
    simp only [AllFilled, Expr.allEverywhere, Bool.and_eq_true] at hf
    obtain ⟨qs, hqs, h⟩ := exists_of_bind_ok h
    obtain ⟨rs, hrs, h⟩ := exists_of_bind_ok h
    cases h
    have hfirst := element_weave hp hn hd inline he.1 (fun hh => (hf hh).1) hqs
    have hrest := elements_weave hp hn hd inline he.2 (fun hh => (hf hh).2) hrs
    exact (hfirst.append hrest).mono fun _ => .inl trivial

end

mutual

theorem statement_weave (hp : p.Weaves hollow) (hn : p.names.InGrammar)
    (hd : Defines hollow p.names) {s : Stmt} (hs : s.isLine true)
    (hf : hollow = false → s.everywhere Expr.isFilled fun _ => true) {rs : List Record}
    (h : statement p s = .ok rs) : Record.Weave hollow rs := by
  cases s with
  | synonym lhs rhs desc =>
    cases h
    exact .nil
  | define lhs rhs desc =>
    cases h
    exact .nil
  | row es args desc =>
    simp only [Stmt.isLine, Bool.and_eq_true] at hs
    simp only [Stmt.everywhere, Bool.and_eq_true] at hf
    simp only [statement] at h
    split at h
    · rename_i id es' args' hr
      obtain ⟨ps, hps, h⟩ := exists_of_bind_ok h
      cases h
      obtain ⟨-, -, hname⟩ := exists_of_loneRow? hr
      have hrow : Filled hollow (.row es' []) := fun hh => by
        simpa [Expr.everywhere, Expr.isFilled] using hd _ _ hname hh
      exact (hp _ _ _ _ (hn.isDefinition_row hname) hrow hps).statementRecords _ _
    · obtain ⟨ps, hps, h⟩ := exists_of_bind_ok h
      cases h
      have hes := elements_weave hp hn hd false hs.1 (fun hh => (hf hh).2) hps
      exact hes.statementRecords _ _
  | group lbrace rbrace args lines desc =>
    simp only [Stmt.isLine, Bool.and_eq_true] at hs
    simp only [Stmt.everywhere, Bool.and_eq_true] at hf
    obtain ⟨qs, hqs, h⟩ := exists_of_bind_ok h
    cases h
    exact (statements_weave hp hn hd hs.1 (fun hh => (hf hh).2) hqs).groupRecords _ _
  | block ss start stop desc => cases hs

theorem statements_weave (hp : p.Weaves hollow) (hn : p.names.InGrammar)
    (hd : Defines hollow p.names) {ss : List Stmt} (hs : Stmt.areLines true ss)
    (hf : LinesFilled hollow ss) {rs : List Record} (h : statements p ss = .ok rs) :
    Record.Weave hollow rs := by
  cases ss with
  | nil =>
    cases h
    exact .nil
  | cons s ss =>
    simp only [Stmt.areLines, Bool.and_eq_true] at hs
    simp only [LinesFilled, Stmt.allEverywhere, Bool.and_eq_true] at hf
    obtain ⟨qs, hqs, h⟩ := exists_of_bind_ok h
    obtain ⟨ts, hts, h⟩ := exists_of_bind_ok h
    cases h
    exact (statement_weave hp hn hd hs.1 (fun hh => (hf hh).1) hqs).append
      (statements_weave hp hn hd hs.2 (fun hh => (hf hh).2) hts)

end

theorem definitionPieces_weave (hp : p.Weaves hollow) (hn : p.names.InGrammar)
    (hd : Defines hollow p.names) (inline : Bool) {d : Expr} (he : d.isDefinition true)
    (hf : Filled hollow d) {ps : List Piece} (h : definitionPieces p inline d = .ok ps) :
    Weave hollow inline True ps := by
  cases d with
  | row es args =>
    simp only [Expr.isDefinition, Bool.and_eq_true] at he
    simp only [Filled, Expr.everywhere, Bool.and_eq_true] at hf
    have hne : es ≠ [] := by simpa using he.1.1
    cases args with
    | nil => exact (elements_weave hp hn hd inline he.1.2 (fun hh => (hf hh).2) h).mono fun _ => hne
    | cons arg args =>
      obtain ⟨qs, hqs, h⟩ := exists_of_bind_ok h
      cases h
      exact (elements_weave hp hn hd true he.1.2 (fun hh => (hf hh).2) hqs).braced (fun _ => hne) _ _
  | group lbrace rbrace args lines =>
    simp only [Expr.isDefinition, Bool.and_eq_true] at he
    simp only [Filled, Expr.everywhere, Bool.and_eq_true] at hf
    simp only [definitionPieces, element] at h
    split at h
    · cases h
    · rename_i hi
      obtain ⟨rs, hrs, h⟩ := exists_of_bind_ok h
      cases h
      cases Bool.eq_false_iff.mpr hi
      have hlines := statements_weave hp hn hd he.1 (fun hh => (hf hh).2) hrs
      exact .group (hlines.groupRecords _ _)
  | ident id => cases he
  | size s => cases he
  | stitch position name args => cases he

end

/-- However deep definitions are in use within each other, they go on weaving. -/
theorem expand_weaves {hollow : Bool} {names : Names} (hn : names.InGrammar)
    (hd : Defines hollow names) (unused : Nat) (within : List String) :
    Place.Weaves hollow ⟨names, within, expand names unused within⟩ := by
  induction unused generalizing within with
  | zero =>
    intro inline id d ps _ _ h
    simp only [expand] at h
    split at h <;> cases h
  | succ n ih =>
    intro inline id d ps he hf h
    simp only [expand] at h
    split at h
    · cases h
    · exact definitionPieces_weave (ih _) hn hd inline he hf h

end Layout

/-- No row within a row of the pattern is empty. -/
def Block.isFilled (b : Block) : Bool :=
  Stmt.allEverywhere Expr.isFilled (fun _ => true) b.statements

/-- The rows of a pattern that is read are woven, and hollow only if a row within a row of the
pattern is empty. -/
theorem Block.weave_records {texts : List String} {b : Block} {rs : List Record}
    (h : Pattern.ofSources texts = .ok b) (hr : b.records = .ok rs) :
    Record.Weave (!b.isFilled) rs := by
  have hb := Pattern.areLines_of_ofSources h
  have hn := Names.inGrammar_ofBlock hb
  obtain ⟨ss, hss, hr⟩ := exists_of_bind_ok (f := fun ss => .ok (Layout.blockRecords b.desc ss)) hr
  cases hr
  have hfilled : Layout.LinesFilled (!b.isFilled) b.statements := fun hf => by
    simpa [isFilled] using hf
  have hd : Layout.Defines (!b.isFilled) (Names.ofBlock b) := fun name d hname hf =>
    (Names.everywhere_ofStmts (hfilled hf)).of_definition hname
  have hs := Layout.statements_weave (Layout.expand_weaves hn hd _ []) hn hd hb hfilled hss
  simpa [Record.Weave, Layout.blockRecords] using hs

end KnittingPattern
