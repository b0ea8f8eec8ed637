import KnittingPattern.Proofs.DescentActs

/-! # Bracket lists and rows by descent

The acts that read bracket lists, stitches and rows go along with the machine that reads token by
token.  Main theorems: `Descent.meets_brackets`, `Descent.meets_braced`, `Descent.meets_row`. -/

namespace KnittingPattern.Descent

open Token (Kind)
open Reader (At)

variable {last t : Token} {o : Except SyntaxError Reader} {r : Reader} {ts : List Token}
variable {owner : Owner} {as : List Expr}

theorem meets_measure {p : Position} {a : Amount} {b : Bool}
    (h : At o (r.moved (.args owner as (.value ⟨p, a, .count, b⟩))) ts) :
    Meets last o measure ts fun m rest =>
      At o (r.moved (.args owner (as ++ [Expr.size ⟨p, a, m, b⟩]) .done)) rest := by
  obtain ⟨t, rest, rfl⟩ := h.exists_cons
  refine .peek ?_
  cases hk : t.kind with
  | comma | rightParen => exact .pure (h.switch (by simp [Reader.args, Reader.afterValue, hk]))
  | feet | inches =>
    exact .next (.pure (h.take (by simp [Reader.args, Reader.afterValue, hk]) (by simp [hk])))
  | identifier =>
    refine .next ?_
    cases hm : Measure.ofName? t.literal with
    | some m =>
      exact .pure (h.take (by simp [Reader.args, Reader.afterValue, hk, hm]) (by simp [hk]))
    | none => exact .error (h.reject (by simp [Reader.args, Reader.afterValue, hk, hm]))
  | _ =>
    exact .next (.error (h.reject (by
      simp [Reader.args, Reader.afterValue, hk, Reader.unexpected])))

/-- A size is read wherever its first token is taken for one. -/
theorem meets_size {p : Place} {b : Bool} {x : Expectation} (hk : t.kind.isSizeValue)
    (hs : (r.moved p).step t = r.sizeValue owner as b t x) (h : At o (r.moved p) (t :: ts)) :
    Meets last o (size t) ts fun s rest => s.before = false ∧
      At o (r.moved (.args owner (as ++ [Expr.size { s with before := b }]) .done)) rest := by
  unfold size
  cases hkind : t.kind with
  | asterisk => exact .pure ⟨rfl, h.take (by simp [hs, Reader.sizeValue, hkind]) (by simp [hkind])⟩
  | identifier =>
    refine (meets_measure (h.take ?_ (by simp [hkind]))).bind fun m _ _ hm => .pure ⟨rfl, hm⟩
    simp [hs, Reader.sizeValue, hkind]
  | number =>
    cases ha : Reader.amount? t.literal with
    | some a =>
      refine (meets_measure (h.take ?_ (by simp [hkind]))).bind fun m _ _ hm => .pure ⟨rfl, hm⟩
      simp [hs, Reader.sizeValue, hkind, ha]
    | none => exact .error (h.reject (by simp [hs, Reader.sizeValue, hkind, ha]))
  | _ => simp [hkind, Kind.isSizeValue] at hk

theorem meets_argument (h : At o (r.moved (.args owner as .next)) ts) :
    Meets last o argument ts fun a rest =>
      At o (r.moved (.args owner (as ++ [a]) .done)) rest := by
  obtain ⟨t, rest, rfl⟩ := h.exists_cons
  refine .next ?_
  cases hk : t.kind with
  | identifier =>
    have hname : At o (r.moved (.args owner as (.name (Reader.identifier t)))) rest :=
      h.take (by simp [Reader.args, Reader.argument, hk]) (by simp [hk])
    obtain ⟨u, rest, rfl⟩ := hname.exists_cons
    refine .peek ?_
    cases hu : u.kind with
    | identifier | feet | inches =>
      have hvalue : At o (r.moved (.args owner as
          (.value ⟨t.position, .named (Reader.identifier t), .count, false⟩))) (u :: rest) :=
        hname.switch (by simp [Reader.args, hu]; rfl)
      refine Meets.bind (P := fun s rest =>
        At o (r.moved (.args owner (as ++ [Expr.size s]) .done)) rest) ?_ fun s _ _ hs => .pure hs
      unfold size
      rw [hk]
      exact (meets_measure hvalue).bind fun m _ _ hm => .pure hm
    | _ => exact .pure (hname.switch (by simp [Reader.args, hu]))
  | number | asterisk =>
    have hs : (r.moved (.args owner as .next)).step t = r.sizeValue owner as false t .argument := by
      simp [Reader.args, Reader.argument, hk]
    refine (meets_size (by simp [hk, Kind.isSizeValue]) hs h).bind fun s _ _ hsize => ?_
    obtain ⟨hbefore, hs⟩ := hsize
    rw [← hbefore] at hs
    exact .pure hs
  | minus =>
    have hminus : At o (r.moved (.args owner as .minus)) rest :=
      h.take (by simp [Reader.args, Reader.argument, hk]) (by simp [hk])
    obtain ⟨u, rest, rfl⟩ := hminus.exists_cons
    refine .next ?_
    split
    next hu => exact (meets_size hu rfl hminus).bind fun s _ _ hs => .pure hs.2
    next hu =>
      refine .error (hminus.reject ?_)
      cases hk : u.kind <;>
        simp_all [Reader.args, Reader.sizeValue, Kind.isSizeValue, Reader.unexpected]
  | _ =>
    exact .error (h.reject (by
      simp [Reader.args, Reader.argument, Reader.sizeValue, hk, Reader.unexpected]))

theorem meets_argumentsRound (h : At o (r.moved (.args owner as .next)) ts) :
    Meets last o (argumentsRound as) ts
      (GoesOn (fun as rest => At o (r.moved (.args owner as .next)) rest)
        (fun as rest => At o (r.moved (Reader.afterArgs owner as)) rest) ts) := by
  refine (meets_argument h).bind fun a rest hrest ha => ?_
  obtain ⟨t, rest, rfl⟩ := ha.exists_cons
  refine .next ?_
  cases hk : t.kind with
  | comma => exact .pure ⟨hrest.length_le, ha.take (Reader.step_done_comma hk) (by simp [hk])⟩
  | rightParen => exact .pure (ha.take (Reader.step_done_rightParen hk) (by simp [hk]))
  | _ =>
    exact .error (ha.reject (by simp [Reader.args, Reader.afterArgument, hk, Reader.unexpected]))

theorem meets_arguments (h : At o (r.moved (.args owner as .next)) ts) :
    Meets last o (arguments as) ts fun as rest =>
      At o (r.moved (Reader.afterArgs owner as)) rest :=
  .loop (fun _ _ h => meets_argumentsRound h) h

theorem meets_brackets (h : At o (r.moved (.args owner [] .first)) ts) :
    Meets last o brackets ts fun as rest => At o (r.moved (Reader.afterArgs owner as)) rest := by
  obtain ⟨t, rest, rfl⟩ := h.exists_cons
  refine .peek ?_
  split
  next hk => exact .next (.pure (h.take (by simp [Reader.args, hk]) (by simp [hk])))
  next hk => exact meets_arguments (h.switch (by simp [Reader.args, hk]))

/-- A bracket list is read, or is empty, wherever the reader asks for nothing else. -/
theorem meets_bracketsIfAny (owner : Owner) {p : Place}
    (hs : ∀ t, (r.moved p).step t = if t.kind = .leftParen then r.goto (.args owner [] .first)
      else (r.moved (Reader.afterArgs owner [])).step t) (h : At o (r.moved p) ts) :
    Meets last o bracketsIfAny ts fun as rest =>
      At o (r.moved (Reader.afterArgs owner as)) rest := by
  obtain ⟨t, rest, rfl⟩ := h.exists_cons
  refine .peek ?_
  split
  next hk => exact .next (meets_brackets (h.take ((hs t).trans (if_pos hk)) (by simp [hk])))
  next hk => exact .pure (h.switch ((hs t).trans (if_neg hk)))

variable {role : Role} {desc : Description} {line : RowLine} {es : List Expr}

theorem meets_stitch (h : At o (r.moved (.stitch line (Reader.identifier t))) ts) :
    Meets last o (stitch t) ts fun e rest => At o (r.moved (.elements (line.push e))) rest := by
  obtain ⟨u, rest, rfl⟩ := h.exists_cons
  refine .peek ?_
  cases hk : u.kind with
  | leftParen =>
    have hargs := h.take (q := r.moved (.args (.stitch line (Reader.identifier t)) [] .first))
      (by simp [Reader.stitch, hk]) (by simp [hk])
    exact .next ((meets_brackets hargs).bind fun as _ _ has => .pure has)
  | identifier | leftBrace | rightBrace | comment | newline | endOfSource | endOfInput =>
    exact .pure (h.switch (by simp [Reader.stitch, hk, Reader.identifier]))
  | _ => exact .next (.error (h.reject (by simp [Reader.stitch, hk, Reader.unexpected])))

/-- The reader within a row in braces that stands in `line`. -/
def Within (o : Except SyntaxError Reader) (r : Reader) (line : RowLine) (lbrace : Position)
    (es : List Expr) (ts : List Token) : Prop :=
  At o (r.moved (.elements
    { line with braces := ⟨lbrace, line.elements⟩ :: line.braces, elements := es })) ts

theorem meets_bracedRound {inner : Position → Descent Expr} {lbrace : Position}
    (hinner : ∀ p line rest, rest.length < ts.length → Within o r line p [] rest →
      Meets last o (inner p) rest fun e rest => At o (r.moved (.elements (line.push e))) rest)
    (h : Within o r line lbrace es ts) :
    Meets last o (bracedRound inner lbrace es) ts
      (GoesOn (fun es rest => Within o r line lbrace es rest)
        (fun e rest => rest.length < ts.length ∧ At o (r.moved (.elements (line.push e))) rest)
        ts) := by
  obtain ⟨t, rest, rfl⟩ := h.exists_cons
  refine .next ?_
  cases hk : t.kind with
  | identifier =>
    have hstitch := h.take (q := r.moved (.stitch _ (Reader.identifier t)))
      (by simp [Reader.elements, hk]; rfl) (by simp [hk])
    exact (meets_stitch hstitch).bind fun e rest hrest he =>
      .pure ⟨Nat.lt_succ_of_le hrest.length_le, he⟩
  | leftBrace =>
    have hopened := h.take (q := r.moved (Reader.openBrace _ t.position))
      (by simp [Reader.elements, hk]; rfl) (by simp [hk])
    exact (hinner t.position _ rest (Nat.lt_succ_self _) hopened).bind fun e rest hrest he =>
      .pure ⟨Nat.lt_succ_of_le hrest.length_le, he⟩
  | rightBrace =>
    have hclosed := h.take (q := r.moved (.closed line es))
      (by simp [Reader.elements, hk]) (by simp [hk])
    refine (meets_bracketsIfAny (.inlineRow line es) (fun u => ?_) hclosed).bind
      fun as rest hrest has => .pure ⟨Nat.lt_succ_of_le hrest.length_le, has⟩
    simp [Reader.closed, Reader.afterArgs]
  | newline | endOfSource | endOfInput | comment =>
    exact .error (h.reject (by simp [Reader.elements, hk, Kind.endsLine, Kind.endsSource]))
  | _ =>
    exact .error (h.reject (by
      simp [Reader.elements, hk, Kind.endsLine, Kind.endsSource, Reader.unexpected]))

/-- The induction is on the tokens, of which fewer are left for a row within another. -/
theorem meets_braced {lbrace : Position} (h : Within o r line lbrace [] ts) :
    Meets last o (braced lbrace) ts fun e rest =>
      rest.length < ts.length ∧ At o (r.moved (.elements (line.push e))) rest := by
  induction hn : ts.length using Nat.strong_induction_on generalizing line lbrace ts with
  | _ n ih =>
    refine .rounds (bracedRound braced lbrace) (fun es => by rw [Round.braced]; rfl)
      (fun _ => by rw [Round.braced]) (fun es ts' hts' h => ?_) hn.le h
    refine (meets_bracedRound (fun p line rest hrest h => ?_) h).mono
      fun x rest _ hx => hx.mono fun e he => ⟨he.1.trans_le hts', he.2⟩
    exact (ih rest.length (hrest.trans_le hts') h rfl).mono fun e _ _ he => he.2

theorem meets_rowRound (h : At o (r.moved (.elements ⟨role, desc, [], es⟩)) ts) :
    Meets last o (rowRound role desc es) ts
      (GoesOn (fun es rest => At o (r.moved (.elements ⟨role, desc, [], es⟩)) rest)
        (fun s rest => At o (r.moved (.lineEnd s)) rest) ts) := by
  obtain ⟨t, rest, rfl⟩ := h.exists_cons
  refine .peek ?_
  cases hk : t.kind with
  | identifier =>
    have hstitch := h.take (q := r.moved (.stitch _ (Reader.identifier t)))
      (by simp [Reader.elements, hk]; rfl) (by simp [hk])
    exact .next ((meets_stitch hstitch).bind fun e rest hrest he =>
      .pure ⟨Nat.lt_succ_of_le hrest.length_le, he⟩)
  | leftBrace =>
    have hopened := h.take (q := r.moved (Reader.openBrace _ t.position))
      (by simp [Reader.elements, hk]; rfl) (by simp [hk])
    exact .next ((meets_braced hopened).bind fun e rest hrest he =>
      .pure ⟨Nat.lt_succ_of_le hrest.length_le, he.2⟩)
  | newline | endOfSource | endOfInput | comment =>
    exact .pure (h.switch (by simp [Reader.elements, hk, Kind.endsLine, Kind.endsSource]))
  | _ =>
    exact .next (.error (h.reject (by
      simp [Reader.elements, hk, Kind.endsLine, Kind.endsSource, Reader.unexpected])))

theorem meets_row (h : At o (r.moved (.elements ⟨role, desc, [], es⟩)) ts) :
    Meets last o (row role desc es) ts fun s rest => At o (r.moved (.lineEnd s)) rest :=
  .loop (fun _ _ h => meets_rowRound h) h

end KnittingPattern.Descent
