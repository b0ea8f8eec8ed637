import KnittingPattern.Proofs.SameTokens
import Mathlib.Data.List.Forall2

/-! # Descriptions that are read alike

Readers that take tokens with the same texts collect descriptions with the same texts, wherever the
tokens stand.  Main theorems: `Reader.Alike.step`, `Block.placeless_of_alike`. -/

namespace KnittingPattern

open Token (Kind)

namespace Description

/-- The description without the positions of its comments. -/
def placeless (d : Description) : Description := ⟨d.comments.map fun c => ⟨.start, c.text⟩⟩

variable {d d' : Description} {c c' : Comment}

theorem placeless_push (hd : d'.placeless = d.placeless) (hc : c'.text = c.text) :
    (d'.push c').placeless = (d.push c).placeless := by
  simp only [placeless, push, Description.mk.injEq, List.map_append] at hd ⊢
  rw [hd, List.map_singleton, List.map_singleton, hc]

theorem placeless_extend (hd : d'.placeless = d.placeless) (hc : c'.text = c.text) :
    (d'.extend ⟨[c']⟩).placeless = (d.extend ⟨[c]⟩).placeless := by
  obtain ⟨cs⟩ := d
  obtain ⟨cs'⟩ := d'
  simp only [placeless, Description.mk.injEq] at hd
  cases cs with
  | nil =>
    obtain rfl : cs' = [] := List.map_eq_nil_iff.mp hd
    simp [placeless, extend, hc]
  | cons e cs =>
    obtain ⟨e', cs', rfl, he, hcs⟩ := List.map_eq_cons_iff.mp hd
    simp only [Comment.mk.injEq, true_and] at he
    simp [placeless, extend, hc, he, hcs]

end Description

/-- The tree without its positions. -/
def Stmt.placeless (s : Stmt) : Stmt := s.map (fun _ => .start) Description.placeless

@[inherit_doc Stmt.placeless]
def Block.placeless (b : Block) : Block := b.map (fun _ => .start) Description.placeless

/-- Statements, one by one under the same descriptions but for positions, also within groups. -/
inductive Stmt.Alike : List Stmt → List Stmt → Prop
  | nil : Alike [] []
  | concat {ss ss' : List Stmt} {s s' : Stmt} (h : Alike ss ss')
    (hd : s'.desc.placeless = s.desc.placeless) (hl : Alike s.lines s'.lines) :
    Alike (ss ++ [s]) (ss' ++ [s'])

section

variable {decimals : Bool} {f : Position → Position} (g g' : Description → Description)

theorem Expr.map_of_isArgument {e : Expr} (h : e.isArgument decimals) : e.map f g = e.map f g' := by
  cases e <;> first | rfl | cases h

theorem Expr.mapAll_of_areArguments {es : List Expr} (h : es.all (isArgument decimals)) :
    mapAll f g es = mapAll f g' es := by
  induction es with
  | nil => rfl
  | cons e es ih =>
    simp only [List.all_cons, Bool.and_eq_true] at h
    rw [mapAll, mapAll, map_of_isArgument g g' h.1, ih h.2]

mutual

/-- Rows have no descriptions within them. -/
theorem Expr.map_of_isElement {e : Expr} (h : e.isElement decimals) : e.map f g = e.map f g' := by
  cases e with
  | stitch position name args =>
    simp only [isElement, Bool.and_eq_true] at h
    rw [map, map, mapAll_of_areArguments g g' h.2]
  | row es args =>
    simp only [isElement, Bool.and_eq_true] at h
    rw [map, map, Expr.mapAll_of_areElements h.1, mapAll_of_areArguments g g' h.2]
  | _ => cases h

theorem Expr.mapAll_of_areElements {es : List Expr} (h : Expr.areElements decimals es) :
    mapAll f g es = mapAll f g' es := by
  cases es with
  | nil => rfl
  | cons e es =>
    simp only [areElements, Bool.and_eq_true] at h
    rw [mapAll, mapAll, Expr.map_of_isElement h.1, Expr.mapAll_of_areElements h.2]

end

/-- The statement under another description and with other lines in its group. -/
def Stmt.refill (d : Description) (lines : List Stmt) : Stmt → Stmt
  | .synonym lhs rhs _ => .synonym lhs rhs d
  | .define lhs (.group lbrace rbrace args _) _ => .define lhs (.group lbrace rbrace args lines) d
  | .define lhs rhs _ => .define lhs rhs d
  | .row es args _ => .row es args d
  | .group lbrace rbrace args _ _ => .group lbrace rbrace args lines d
  | s => s

/-- What a line has besides descriptions is in the line without them. -/
theorem Stmt.map_eq_refill {s : Stmt} (h : s.isLine decimals) :
    s.map f g = (s.map f g').refill (g s.desc) (mapAll f g s.lines) := by
  cases s with
  | synonym lhs rhs desc => rfl
  | define lhs rhs desc =>
    simp only [isLine, Bool.and_eq_true] at h
    cases rhs with
    | row es args =>
      simp only [Expr.isDefinition, Bool.and_eq_true] at h
      simp only [map, Expr.map, refill, Expr.mapAll_of_areElements g g' h.2.1.2,
        Expr.mapAll_of_areArguments g g' h.2.2]
      rfl
    | group lbrace rbrace args lines =>
      simp only [Expr.isDefinition, Bool.and_eq_true] at h
      simp only [map, Expr.map, refill, Expr.mapAll_of_areArguments g g' h.2.2]
      rfl
    | _ => cases h.2
  | row es args desc =>
    simp only [isLine, Bool.and_eq_true] at h
    simp only [map, refill, Expr.mapAll_of_areElements g g' h.1,
      Expr.mapAll_of_areArguments g g' h.2]
    rfl
  | group lbrace rbrace args lines desc =>
    simp only [isLine, Bool.and_eq_true] at h
    simp only [map, refill, Expr.mapAll_of_areArguments g g' h.2]
    rfl
  | block => cases h

theorem Stmt.lines_map (s : Stmt) : (s.map f g).lines = mapAll f g s.lines := by
  cases s with
  | define lhs rhs desc => cases rhs <;> rfl
  | _ => rfl

/-- Lines that are the same but for positions and descriptions are the same but for positions, if
their descriptions are. -/
theorem Stmt.placeless_of_alike {ss ss' : List Stmt} (h : Alike ss ss')
    (hl : areLines decimals ss) (hl' : areLines decimals ss')
    (hp : ss'.map plain = ss.map plain) : ss'.map placeless = ss.map placeless := by
  induction h with
  | nil => rfl
  | @concat ss ss' s s' h hd hlines ih ihlines =>
    simp only [areLines_eq_all, List.all_append, List.all_cons, List.all_nil, Bool.and_true,
      Bool.and_eq_true] at hl hl'
    rw [List.map_append, List.map_append] at hp ⊢
    obtain ⟨hss, hs⟩ := List.append_singleton_inj.mp hp
    have hinner : s'.lines.map plain = s.lines.map plain := by
      have hlines := congrArg Stmt.lines hs
      rw [plain, plain, lines_map, lines_map, mapAll_eq_map, mapAll_eq_map] at hlines
      exact hlines
    have hrefill {s : Stmt} (h : s.isLine decimals) :
        s.placeless = s.plain.refill s.desc.placeless (s.lines.map placeless) := by
      rw [placeless, plain, map_eq_refill _ (fun _ => .none) h, mapAll_eq_map]
      rfl
    have hsame : s'.placeless = s.placeless := by
      rw [hrefill hl.2, hrefill hl'.2, hs, hd,
        ihlines (areLines_lines hl.2) (areLines_lines hl'.2) hinner]
    rw [ih (by simpa using hl.1) (by simpa using hl'.1) hss, List.map_singleton,
      List.map_singleton, hsame]

/-- Patterns with the same statements but for positions and descriptions are the same but for
positions, if their descriptions are. -/
theorem Block.placeless_of_alike {b b' : Block} (h : Stmt.Alike b.statements b'.statements)
    (hd : b'.desc.placeless = b.desc.placeless) (hl : Stmt.areLines decimals b.statements)
    (hl' : Stmt.areLines decimals b'.statements) (hp : b'.plain = b.plain) :
    b'.placeless = b.placeless := by
  have hstatements : b'.statements.map Stmt.plain = b.statements.map Stmt.plain := by
    have hstatements := congrArg Block.statements hp
    simp only [plain, map, Stmt.mapAll_eq_map] at hstatements
    exact hstatements
  have hsame := Stmt.placeless_of_alike h hl hl' hstatements
  simp only [placeless, map, Stmt.mapAll_eq_map, hd]
  exact congrArg (Block.mk · _ _ _) hsame

end

/-- Open groups with the same descriptions, also of the statements before them. -/
structure OpenGroup.Alike (g g' : OpenGroup) : Prop where
  desc : g'.desc.placeless = g.desc.placeless
  before : Stmt.Alike g.before g'.before

/-- Places with the same descriptions. -/
inductive Place.Alike : Place → Place → Prop
  | between {run : Run} {d d' : Description} (hd : d'.placeless = d.placeless) :
    Alike (.between run d) (.between run d')
  | line {p p' : Place} {lines lines' : List Stmt} {d d' : Description}
    (h : p.Carries (lines = []) (lines = ·) d) (h' : p'.Carries (lines' = []) (lines' = ·) d')
    (hd : d'.placeless = d.placeless) (hl : Stmt.Alike lines lines') : Alike p p'
  | commented {s s' : Stmt} (hd : s'.desc.placeless = s.desc.placeless)
    (hl : Stmt.Alike s.lines s'.lines) : Alike (.commented s) (.commented s')

namespace Reader

/-- Readers with the same descriptions but for positions. -/
structure Alike (r r' : Reader) : Prop where
  title : r'.title.placeless = r.title.placeless
  groups : List.Forall₂ OpenGroup.Alike r.groups r'.groups
  statements : Stmt.Alike r.statements r'.statements
  place : Place.Alike r.place r'.place

variable {r r' q q' : Reader} {t t' : Token} {d d' : Description} {s s' : Stmt}

theorem Alike.goto (h : Alike r r') {p p' : Place} (hp : Place.Alike p p') :
    Alike { r with place := p } { r' with place := p' } :=
  ⟨h.title, h.groups, h.statements, hp⟩

theorem Alike.finish (h : Alike r r') (hd : s'.desc.placeless = s.desc.placeless)
    (hl : Stmt.Alike s.lines s'.lines) : Alike (r.finish s) (r'.finish s') :=
  ⟨h.title, h.groups, h.statements.concat hd hl, .between rfl⟩

theorem Alike.statement (h : Alike r r') (hd : d'.placeless = d.placeless)
    (ht : t.lexeme.Same t'.lexeme) (hq : r.statement d t = .ok q)
    (hq' : r'.statement d' t' = .ok q') : Alike q q' := by
  obtain ⟨kind, literal, position, source⟩ := t
  obtain ⟨kind', literal', position', source'⟩ := t'
  obtain rfl : kind' = kind := ht.kind
  obtain ⟨title, groups, ss, place⟩ := r
  obtain ⟨title', groups', ss', place'⟩ := r'
  have hgroups := h.groups
  have hbetween (run : Run) {d d' : Description} (hd : d'.placeless = d.placeless) :
      Alike ⟨title, groups, ss, .between run d⟩ ⟨title', groups', ss', .between run d'⟩ :=
    h.goto (.between hd)
  cases kind' with
  | newline =>
    cases hq
    cases hq'
    exact hbetween .none hd
  | comment =>
    have hliteral : literal' = literal := ht.text (by simp [Token.lexeme])
    cases hq
    cases hq'
    exact hbetween (.comment false) (Description.placeless_extend hd hliteral)
  | identifier | leftBrace =>
    cases hq
    cases hq'
    exact h.goto (.line ⟨rfl, rfl⟩ ⟨rfl, rfl⟩ hd .nil)
  | endOfSource | endOfInput =>
    cases hgroups with
    | nil =>
      cases hq
      cases hq'
      exact hbetween .none hd
    | cons => cases hq
  | rightBrace =>
    cases hgroups with
    | nil => cases hq
    | cons hg hgroups =>
      cases hq
      cases hq'
      exact ⟨h.title, hgroups, hg.before, .line ⟨rfl, rfl⟩ ⟨rfl, rfl⟩ hg.desc h.statements⟩
  | _ => cases groups <;> cases hq

theorem Alike.between (h : Alike r r') {run : Run} (hd : d'.placeless = d.placeless)
    (ht : t.lexeme.Same t'.lexeme) (hq : r.between run d t = .ok q)
    (hq' : r'.between run d' t' = .ok q') : Alike q q' := by
  have hkind : t'.kind = t.kind := ht.kind
  have hstatement (he : r.between run d t = r.statement d t)
      (he' : r'.between run d' t' = r'.statement d' t') : Alike q q' :=
    h.statement hd ht (he.symm.trans hq) (he'.symm.trans hq')
  by_cases hc : t.kind = .comment
  · have hliteral : t'.literal = t.literal := ht.text (by simp [Token.lexeme, hc])
    have hc' := hkind.trans hc
    cases run with
    | none | comment b =>
      exact hstatement (by simp only [Reader.between, hc]) (by simp only [Reader.between, hc'])
    | start =>
      simp only [Reader.between, hc, hc', Reader.goto] at hq hq'
      cases hq
      cases hq'
      exact h.goto (.between (by simp [Description.placeless, comment, hliteral]))
    | line b =>
      simp only [Reader.between, hc, hc', Reader.goto] at hq hq'
      cases hq
      cases hq'
      exact h.goto (.between (Description.placeless_push hd hliteral))
  · by_cases hn : t.kind = .newline
    · have hn' := hkind.trans hn
      cases run with
      | none | start =>
        exact hstatement (by simp [Reader.between, hn]) (by simp [Reader.between, hn'])
      | comment b =>
        simp only [Reader.between, hn, hn', Reader.goto] at hq hq'
        cases hq
        cases hq'
        exact h.goto (.between hd)
      | line b =>
        cases b with
        | false => exact hstatement (by simp [Reader.between, hn]) (by simp [Reader.between, hn'])
        | true =>
          simp only [Reader.between, hn, hn'] at hq hq'
          cases hq
          cases hq'
          exact ⟨hd, h.groups, h.statements, .between rfl⟩
    · exact hstatement (between_eq_statement r run d hn hc)
        (between_eq_statement r' run d' (hkind ▸ hn) (hkind ▸ hc))

theorem Alike.ending (h : Alike r r') (hd : s'.desc.placeless = s.desc.placeless)
    (hl : Stmt.Alike s.lines s'.lines) (ht : t.lexeme.Same t'.lexeme) (hq : r.ending s t = .ok q)
    (hq' : r'.ending s' t' = .ok q') : Alike q q' := by
  have hkind : t'.kind = t.kind := ht.kind
  have hfinish := h.finish hd hl
  by_cases hn : t.kind = .newline
  · rw [Reader.ending, if_pos hn] at hq
    rw [Reader.ending, if_pos (hkind.trans hn)] at hq'
    cases hq
    cases hq'
    exact hfinish
  · rw [Reader.ending, if_neg hn] at hq
    rw [Reader.ending, if_neg (hkind ▸ hn), hkind] at hq'
    split at hq
    · rename_i he
      rw [if_pos he] at hq'
      exact hfinish.statement rfl ht hq hq'
    · cases hq

/-- The end of a line with the same statement in it. -/
theorem Alike.endLine (h : Alike r r') (hp : r'.plain = r.plain) {lines lines' : List Stmt}
    (hc : r.place.Carries (lines = []) (lines = ·) d)
    (hc' : r'.place.Carries (lines' = []) (lines' = ·) d') (hd : d'.placeless = d.placeless)
    (hl : Stmt.Alike lines lines') (ht : t.lexeme.Same t'.lexeme) (he : t.kind.endsLine)
    (hq : r.step t = .ok q) (hq' : r'.step t' = .ok q') : Alike q q' := by
  have hended : r'.place.ended?.map Stmt.plain = r.place.ended?.map Stmt.plain := by
    have hplace : r'.place.plain = r.place.plain := congrArg Reader.place hp
    rw [← Place.ended?_plain, ← Place.ended?_plain, hplace]
  have hkind : t'.kind = t.kind := ht.kind
  obtain ⟨role, lbrace, -, -, hbrace, rfl⟩ | ⟨s, hs, hending⟩ := ended_of_step hc he hq
  · obtain ⟨role', lbrace', -, -, hbrace', rfl⟩ | ⟨s', hs', -⟩ :=
      ended_of_step hc' (hkind ▸ he) hq'
    · exact ⟨h.title, .cons ⟨hd, h.statements⟩ h.groups, .nil, .between rfl⟩
    · rw [hs', hbrace] at hended
      cases hended
  · obtain ⟨role', lbrace', -, -, hbrace', rfl⟩ | ⟨s', hs', hending'⟩ :=
      ended_of_step hc' (hkind ▸ he) hq'
    · rw [hs, hbrace'] at hended
      cases hended
    · obtain ⟨rfl, rfl⟩ := carries_ended (fun h => h) hc hs
      obtain ⟨rfl, rfl⟩ := carries_ended (fun h => h) hc' hs'
      exact h.ending hd hl ht hending hending'

/-- A comment behind the same statement. -/
theorem Alike.comment (h : Alike r r') {lines lines' : List Stmt}
    (hc : r.place.Carries (lines = []) (lines = ·) d)
    (hc' : r'.place.Carries (lines' = []) (lines' = ·) d') (hd : d'.placeless = d.placeless)
    (hl : Stmt.Alike lines lines') (ht : t.lexeme.Same t'.lexeme) (hk : t.kind = .comment)
    (hq : r.step t = .ok q) (hq' : r'.step t' = .ok q') : Alike q q' := by
  have hk' : t'.kind = .comment := ht.kind.trans hk
  have hliteral : t'.literal = t.literal := ht.text (by simp [Token.lexeme, hk])
  obtain ⟨run, desc, -, -, hplace, -⟩ | ⟨s, hs, rfl⟩ := step_comment hk hq
  · rw [hplace] at hc
    cases hc
  · obtain ⟨run, desc, -, -, hplace, -⟩ | ⟨s', hs', rfl⟩ := step_comment hk' hq'
    · rw [hplace] at hc'
      cases hc'
    · obtain ⟨rfl, rfl⟩ := carries_ended (fun h => h) hc hs
      obtain ⟨rfl, rfl⟩ := carries_ended (fun h => h) hc' hs'
      refine h.goto (.commented ?_ ?_)
      · rw [Stmt.desc_withDesc, Stmt.desc_withDesc]
        exact Description.placeless_push hd hliteral
      · rwa [Stmt.lines_withDesc, Stmt.lines_withDesc]

/-- Readers with the same descriptions have the same behind tokens with the same texts. -/
theorem Alike.step (h : Alike r r') (hp : r'.plain = r.plain) (ht : t.lexeme.Same t'.lexeme)
    (hq : r.step t = .ok q) (hq' : r'.step t' = .ok q') : Alike q q' := by
  have hkind : t'.kind = t.kind := ht.kind
  have hplace := h.place
  generalize hr : r.place = p at hplace
  generalize hr' : r'.place = p' at hplace
  cases hplace with
  | between hd =>
    rw [Reader.step, hr] at hq
    rw [Reader.step, hr'] at hq'
    exact h.between hd ht hq hq'
  | commented hd hl =>
    rw [Reader.step, hr] at hq
    rw [Reader.step, hr'] at hq'
    exact h.ending hd hl ht hq hq'
  | line hc hc' hd hl =>
    rw [← hr] at hc
    rw [← hr'] at hc'
    by_cases hline : t.kind.isInLine
    · obtain ⟨u, hu, rfl⟩ := moves_step (fun h => h) hc hline q hq
      obtain ⟨u', hu', rfl⟩ := moves_step (fun h => h) hc' (hkind ▸ hline) q' hq'
      exact h.goto (.line hu hu' hd hl)
    · by_cases hk : t.kind = .comment
      · exact h.comment hc hc' hd hl ht hk hq hq'
      · have he : t.kind.endsLine := by simpa [Kind.isInLine, hk] using hline
        exact h.endLine hp hc hc' hd hl ht he hq hq'

end Reader
end KnittingPattern
