import KnittingPattern.Proofs.CommentReading
import KnittingPattern.Proofs.SourceTokens
import Mathlib.Data.List.Perm.Basic

/-! # Comments that are kept

A comment is left out if it is alone on its line and no statement follows it there: behind it comes
the end of a group or of the input.  All others are in the descriptions of statements, each in one.
Main theorems: `Token.Told.perm`, `Token.Told.described`. -/

namespace KnittingPattern

open Token (Kind)

mutual

/-- The statements within an expression, with all that are within them. -/
def Expr.within : Expr → List Stmt
  | .stitch _ _ args => Expr.withinAll args
  | .row es args => Expr.withinAll es ++ Expr.withinAll args
  | .group _ _ args lines => Expr.withinAll args ++ Stmt.withinAll lines
  | _ => []

def Expr.withinAll : List Expr → List Stmt
  | [] => []
  | e :: es => e.within ++ Expr.withinAll es

/-- A statement with all statements within it. -/
def Stmt.within : Stmt → List Stmt
  | .synonym lhs rhs desc => [.synonym lhs rhs desc]
  | .define lhs rhs desc => .define lhs rhs desc :: rhs.within
  | .row es args desc => .row es args desc :: (Expr.withinAll es ++ Expr.withinAll args)
  | .group lbrace rbrace args lines desc =>
    .group lbrace rbrace args lines desc :: (Expr.withinAll args ++ Stmt.withinAll lines)
  | .block ss start stop desc => .block ss start stop desc :: Stmt.withinAll ss

def Stmt.withinAll : List Stmt → List Stmt
  | [] => []
  | s :: ss => s.within ++ Stmt.withinAll ss

end

/-- The entries of all descriptions of some statements. -/
def Stmt.entries (ss : List Stmt) : List Comment :=
  (Stmt.withinAll ss).flatMap fun s => s.desc.comments

/-- The entries of all descriptions of a pattern. -/
def Block.entries (b : Block) : List Comment := b.desc.comments ++ Stmt.entries b.statements

theorem Stmt.withinAll_append (ss ss' : List Stmt) :
    withinAll (ss ++ ss') = withinAll ss ++ withinAll ss' := by
  induction ss with
  | nil => rfl
  | cons s ss ih => simp [withinAll, ih]

section

variable {decimals : Bool}

theorem Expr.within_of_isArgument {e : Expr} (h : e.isArgument decimals) : e.within = [] := by
  cases e <;> first | rfl | cases h

theorem Expr.withinAll_of_areArguments {es : List Expr} (h : es.all (isArgument decimals)) :
    withinAll es = [] := by
  induction es with
  | nil => rfl
  | cons e es ih =>
    simp only [List.all_cons, Bool.and_eq_true] at h
    rw [withinAll, within_of_isArgument h.1, ih h.2, List.append_nil]

mutual

/-- No statement is within a row. -/
theorem Expr.within_of_isElement {e : Expr} (h : e.isElement decimals) : e.within = [] := by
  cases e with
  | stitch position name args =>
    simp only [isElement, Bool.and_eq_true] at h
    rw [within, withinAll_of_areArguments h.2]
  | row es args =>
    simp only [isElement, Bool.and_eq_true] at h
    rw [within, Expr.withinAll_of_areElements h.1, withinAll_of_areArguments h.2,
      List.append_nil]
  | _ => cases h

theorem Expr.withinAll_of_areElements {es : List Expr} (h : Expr.areElements decimals es) :
    withinAll es = [] := by
  cases es with
  | nil => rfl
  | cons e es =>
    simp only [areElements, Bool.and_eq_true] at h
    rw [withinAll, Expr.within_of_isElement h.1, Expr.withinAll_of_areElements h.2,
      List.append_nil]

end

/-- Within a line of the grammar are the statements of its group. -/
theorem Stmt.within_of_isLine {s : Stmt} (h : s.isLine decimals) :
    s.within = s :: withinAll s.lines := by
  cases s with
  | synonym lhs rhs desc => rfl
  | define lhs rhs desc =>
    simp only [isLine, Bool.and_eq_true] at h
    cases rhs with
    | row es args =>
      simp only [Expr.isDefinition, Bool.and_eq_true] at h
      rw [within, Expr.within, Expr.withinAll_of_areElements h.2.1.2,
        Expr.withinAll_of_areArguments h.2.2]
      rfl
    | group lbrace rbrace args lines =>
      simp only [Expr.isDefinition, Bool.and_eq_true] at h
      rw [within, Expr.within, Expr.withinAll_of_areArguments h.2.2, List.nil_append]
      rfl
    | _ => cases h.2
  | row es args desc =>
    simp only [isLine, Bool.and_eq_true] at h
    rw [within, Expr.withinAll_of_areElements h.1, Expr.withinAll_of_areArguments h.2]
    rfl
  | group lbrace rbrace args lines desc =>
    simp only [isLine, Bool.and_eq_true] at h
    rw [within, Expr.withinAll_of_areArguments h.2, List.nil_append]
    rfl
  | block => cases h

end

namespace Token

/-- The comments among tokens. -/
def comments (ts : List Token) : List Comment :=
  (ts.filter fun t => t.kind == .comment).map Reader.comment

/-- The next token that is no comment and no end of a line closes a group; `ends` says so of what
stands behind the tokens. -/
def closesGroup (ends : Bool) : List Token → Bool
  | [] => ends
  | t :: ts => if t.kind.isGap then closesGroup ends ts else t.kind == .rightBrace

/-- The comments among tokens that are not left out.  A comment is left out if it is alone on its
line and what follows is the end of the group or the input.  `starts` says that the first token
stands at the start of a line, `ends` that such an end stands behind the last one. -/
def kept (ends starts : Bool) : List Token → List Token
  | [] => []
  | t :: ts =>
    if t.kind = .comment ∧ !(starts && closesGroup ends ts) then t :: kept ends t.kind.endsLine ts
    else kept ends t.kind.endsLine ts

/-- A token behind these stands at the start of a line. -/
def startsBehind (starts : Bool) (ts : List Token) : Bool :=
  (ts.getLast?.map fun t => t.kind.endsLine).getD starts

variable {ts gap words : List Token} {ss : List Stmt} {ends starts : Bool}

theorem closesGroup_append (xs ys : List Token) :
    closesGroup ends (xs ++ ys) = closesGroup (closesGroup ends ys) xs := by
  induction xs with
  | nil => rfl
  | cons x xs ih => simp only [List.cons_append, closesGroup, ih]

theorem kept_append (xs ys : List Token) : kept ends starts (xs ++ ys) =
    kept (closesGroup ends ys) starts xs ++ kept ends (startsBehind starts xs) ys := by
  induction xs generalizing starts with
  | nil => rfl
  | cons x xs ih =>
    have hbehind : startsBehind starts (x :: xs) = startsBehind x.kind.endsLine xs := by
      cases xs with
      | nil => rfl
      | cons y ys => simp [startsBehind, List.getLast?_cons]
    simp only [List.cons_append, kept, closesGroup_append, ih, hbehind]
    split_ifs <;> rfl

/-- Tokens of a line hold no comment. -/
theorem kept_words {first : Kind → Prop} (h : Words first words) :
    kept ends starts words = [] := by
  have hall := h.all
  clear h
  induction words generalizing starts with
  | nil => rfl
  | cons w words ih =>
    obtain ⟨hw, hall⟩ := List.forall_mem_cons.mp hall
    rw [kept, if_neg fun h => (Kind.of_isInLine hw).2.1 h.1, ih hall]

theorem startsBehind_words {first : Kind → Prop} (h : Words first words) :
    startsBehind starts words = false := by
  obtain ⟨⟨w, hw, -⟩, hall⟩ := h
  have hne : words ≠ [] := by
    rintro rfl
    cases hw
  rw [startsBehind, List.getLast?_eq_getLast_of_ne_nil hne]
  have hlast := Kind.of_isInLine (hall _ (List.getLast_mem hne))
  have := hlast.1
  simp only [Bool.or_eq_false_iff] at this
  exact this.1

theorem closesGroup_begins (h : Begins words) (ts : List Token) :
    closesGroup ends (words ++ ts) = false := by
  obtain ⟨⟨w, hw, hfirst⟩, -⟩ := h
  obtain ⟨words, rfl⟩ := List.head?_eq_some_iff.mp hw
  rcases hfirst with hfirst | hfirst <;> simp [closesGroup, hfirst, Kind.isGap]

theorem closesGroup_closes (h : Closes words) (ts : List Token) :
    closesGroup ends (words ++ ts) = true := by
  obtain ⟨⟨w, hw, hfirst⟩, -⟩ := h
  obtain ⟨words, rfl⟩ := List.head?_eq_some_iff.mp hw
  simp [closesGroup, hfirst, Kind.isGap]

theorem startsBehind_of_lineStarts (h : LineStarts ts) : startsBehind true ts = true := by
  unfold startsBehind
  cases hl : ts.getLast? with
  | none => rfl
  | some t => exact h t hl

/-- A comment behind a statement is kept. -/
theorem kept_trailing {trailing : Option Token} (h : ∀ c ∈ trailing, c.kind = .comment) :
    kept ends false trailing.toList = trailing.toList := by
  cases trailing with
  | none => rfl
  | some c => simp [kept, h c rfl]

/-- A statement in one line ends what stands before it, and adds the comment behind it. -/
theorem kept_line {trailing : Option Token} (hw : Begins words)
    (ht : ∀ c ∈ trailing, c.kind = .comment) (ts : List Token) :
    kept ends true (ts ++ (words ++ trailing.toList)) = kept false true ts ++ trailing.toList := by
  rw [kept_append, closesGroup_begins hw, kept_append, kept_words hw, startsBehind_words hw,
    kept_trailing ht, List.nil_append]

/-- A group adds the comments within it as well. -/
theorem kept_group {head body tail : List Token} {n : Token} {trailing : Option Token}
    (hw : Begins head) (hn : n.kind = .newline) (hc : Closes tail)
    (ht : ∀ c ∈ trailing, c.kind = .comment) (ts : List Token) :
    kept ends true (ts ++ (head ++ n :: (body ++ tail) ++ trailing.toList)) =
      kept false true ts ++ (kept true true body ++ trailing.toList) := by
  have hn' : n.kind ≠ .comment := by simp [hn]
  have hends : n.kind.endsLine = true := by rw [hn]; rfl
  rw [List.append_assoc, kept_append, closesGroup_begins hw, kept_append, kept_words hw,
    List.cons_append, List.append_assoc, kept, if_neg fun h => hn' h.1, hends, kept_append,
    closesGroup_closes hc, kept_append, kept_words hc, startsBehind_words hc, kept_trailing ht]
  rfl

/-- The entries that are written as comments. -/
def written (cs : List Comment) : List Comment := cs.filter fun c => c.text ≠ ""

theorem written_append (cs ds : List Comment) : written (cs ++ ds) = written cs ++ written ds :=
  List.filter_append ..

theorem written_separated (cs : List Comment) : written (separated cs) = written cs := by
  cases cs <;> rfl

theorem comments_append (xs ys : List Token) :
    comments (xs ++ ys) = comments xs ++ comments ys := by
  simp [comments]

theorem written_comments (h : ∀ t ∈ ts, t.kind = .comment → t.literal ≠ "") :
    written (comments ts) = comments ts := by
  refine List.filter_eq_self.mpr fun c hc => ?_
  obtain ⟨t, ht, rfl⟩ := List.mem_map.mp hc
  obtain ⟨ht, hk⟩ := List.mem_filter.mp ht
  exact decide_eq_true (h t ht (beq_iff_eq.mp hk))

/-- A description has the comments that make it, and else only what divides them. -/
theorem written_lead (h : ∀ t ∈ gap, t.kind = .comment → t.literal ≠ "") :
    written (lead gap) = comments gap := by
  induction gap with
  | nil => rfl
  | cons c ts ih =>
    obtain ⟨hlit, hts⟩ := List.forall_mem_cons.mp h
    have hsingle (hc : c.kind = .comment) (cs : List Comment) :
        written (Reader.comment c :: cs) = Reader.comment c :: written cs :=
      List.filter_cons_of_pos (decide_eq_true (hlit hc))
    by_cases hc : c.kind = .comment
    · have hcomments : comments (c :: ts) = Reader.comment c :: comments ts := by
        simp [comments, hc]
      cases hg : goesOn ts with
      | true => rw [lead_cons_of_goesOn hc hg, hsingle hc, ih hts, hcomments]
      | false =>
        rw [lead_cons_of_stops hc hg, hsingle hc, written_separated, ih hts, hcomments]
    · have hcomments : comments (c :: ts) = comments ts := by simp [comments, hc]
      rw [lead_cons_of_not_comment hc, ih hts, hcomments]

theorem entries_append (ss ss' : List Stmt) :
    Stmt.entries (ss ++ ss') = Stmt.entries ss ++ Stmt.entries ss' := by
  rw [Stmt.entries, Stmt.withinAll_append, List.flatMap_append]
  rfl

theorem entries_singleton {s : Stmt} (h : s.isLine true) :
    Stmt.entries [s] = s.desc.comments ++ Stmt.entries s.lines := by
  simp [Stmt.entries, Stmt.withinAll, Stmt.within_of_isLine h]

theorem Told.suffix (h : Told ts ss gap) : gap <:+ ts := by
  induction h with
  | start => exact List.suffix_rfl
  | gap h ht alone ih => exact List.suffix_append_self_iff.mpr ih
  | line => exact List.nil_suffix
  | group => exact List.nil_suffix

/-- The comments that a statement takes. -/
theorem written_desc {s : Stmt} {trailing : Option Token}
    (hd : s.desc.comments = lead gap ++ trailing.toList.map Reader.comment)
    (hgap : ∀ t ∈ gap, t.kind = .comment → t.literal ≠ "")
    (ht : ∀ c ∈ trailing, c.kind = .comment ∧ c.literal ≠ "") :
    written s.desc.comments = comments gap ++ trailing.toList.map Reader.comment := by
  rw [hd, written_append, written_lead hgap]
  cases trailing with
  | none => rfl
  | some c =>
    have hc : written [Reader.comment c] = [Reader.comment c] :=
      List.filter_cons_of_pos (decide_eq_true (ht c rfl).2)
    exact congrArg _ hc

/-- A statement adds the comments before it, those within it and one behind it. -/
theorem perm_statement {s : Stmt} {trailing : Option Token} {before inner : List Token}
    (hs : s.isLine true)
    (hd : s.desc.comments = lead gap ++ trailing.toList.map Reader.comment)
    (hgap : ∀ t ∈ gap, t.kind = .comment → t.literal ≠ "")
    (ht : ∀ c ∈ trailing, c.kind = .comment ∧ c.literal ≠ "")
    (hbefore : (written (Stmt.entries ss) ++ comments gap).Perm (before.map Reader.comment))
    (hinner : (written (Stmt.entries s.lines)).Perm (inner.map Reader.comment)) :
    (written (Stmt.entries (ss ++ [s]))).Perm
      ((before ++ (inner ++ trailing.toList)).map Reader.comment) := by
  rw [entries_append, entries_singleton hs, written_append, written_append,
    written_desc hd hgap ht, List.map_append, List.map_append, List.append_assoc,
    ← List.append_assoc]
  exact hbefore.append (List.perm_append_comm.trans (hinner.append_right _))

/-- The comments that are not left out are those in the descriptions; behind the last statement it
depends on what follows. -/
theorem Told.perm (h : Told ts ss gap) (hl : Stmt.areLines true ss)
    (hlit : ∀ t ∈ ts, t.kind = .comment → t.literal ≠ "") (ends : Bool) :
    (written (Stmt.entries ss) ++ if ends then [] else comments gap).Perm
      ((kept ends true ts).map Reader.comment) := by
  induction h generalizing ends with
  | start => cases ends <;> exact .nil
  | @gap ts ss gap t h ht alone ih =>
    obtain ⟨hlit, -⟩ := List.forall_mem_append.mp hlit
    have hcloses : closesGroup ends [t] = ends := by simp [closesGroup, ht]
    have hlast : (kept ends (startsBehind true ts) [t]).map Reader.comment =
        if ends then [] else comments [t] := by
      by_cases hc : t.kind = .comment
      · rw [startsBehind_of_lineStarts (alone hc)]
        cases ends <;> simp [kept, closesGroup, comments, hc]
      · cases ends <;> simp [kept, comments, hc]
    have hih := ih hl hlit ends
    rw [kept_append, hcloses, List.map_append, hlast, comments_append]
    cases ends with
    | true => simpa using hih
    | false => simpa using hih.append_right (comments [t])
  | @line ts ss gap words s trailing h hw hs ht hd ih =>
    simp only [Stmt.areLines_eq_all, List.all_append, List.all_cons, List.all_nil, Bool.and_true,
      Bool.and_eq_true] at hl
    simp only [List.forall_mem_append, Option.mem_toList] at hlit
    have hinner : (written (Stmt.entries s.lines)).Perm (List.map Reader.comment []) := by
      rw [hs]
      exact .nil
    rw [kept_line hw ht]
    simpa [comments] using perm_statement hl.2 hd (fun t ht => hlit.1 t (h.suffix.subset ht))
      (fun c hc => ⟨ht c hc, hlit.2.2 c hc (ht c hc)⟩)
      (by simpa using ih (by simpa using hl.1) hlit.1 false) hinner
  | @group ts ss gap head body dropped tail n s trailing h hw hn hb hc ht hd ih ihb =>
    simp only [Stmt.areLines_eq_all, List.all_append, List.all_cons, List.all_nil, Bool.and_true,
      Bool.and_eq_true] at hl
    simp only [List.forall_mem_append, List.forall_mem_cons, Option.mem_toList] at hlit
    obtain ⟨hlit, ⟨-, -, hbody, -⟩, htrail⟩ := hlit
    have hinner := ihb (Stmt.areLines_lines hl.2) hbody true
    rw [kept_group hw hn hc ht]
    simpa [comments] using perm_statement hl.2 hd (fun t ht => hlit t (h.suffix.subset ht))
      (fun c hc => ⟨ht c hc, htrail c hc (ht c hc)⟩)
      (by simpa using ih (by simpa using hl.1) hlit false) (by simpa using hinner)

/-- A statement with the tokens that describe it: a row between lines, and a comment behind it. -/
def Described (ts : List Token) (s : Stmt) : Prop :=
  ∃ gap : List Token, ∃ trailing : Option Token, gap <:+: ts ∧ (∀ t ∈ gap, t.kind.isGap) ∧
    (∀ c ∈ trailing, c ∈ ts ∧ c.kind = .comment) ∧
    s.desc.comments = paragraphs (runs gap) ++ trailing.toList.map Reader.comment

theorem Described.mono {s : Stmt} {ts' : List Token} (h : Described ts s) (hts : ts <:+: ts') :
    Described ts' s := by
  obtain ⟨gap, trailing, hgap, hall, ht, hd⟩ := h
  exact ⟨gap, trailing, hgap.trans hts, hall, fun c hc => ⟨hts.subset (ht c hc).1, (ht c hc).2⟩, hd⟩

theorem Told.all_isGap (h : Told ts ss gap) : ∀ t ∈ gap, t.kind.isGap := by
  induction h with
  | start => simp
  | gap h ht alone ih => exact List.forall_mem_append.mpr ⟨ih, by simpa using ht⟩
  | line => simp
  | group => simp

theorem withinAll_concat {s : Stmt} (h : s.isLine true) :
    Stmt.withinAll (ss ++ [s]) = Stmt.withinAll ss ++ s :: Stmt.withinAll s.lines := by
  simp [Stmt.withinAll_append, Stmt.withinAll, Stmt.within_of_isLine h]

/-- Each statement is described, also those within groups. -/
theorem Told.described (h : Told ts ss gap) (hl : Stmt.areLines true ss) :
    ∀ s ∈ Stmt.withinAll ss, Described ts s := by
  induction h with
  | start => simp [Stmt.withinAll]
  | gap h ht alone ih => exact fun s hs => (ih hl s hs).mono (List.infix_append' [] _ _)
  | @line ts ss gap words s trailing h hw hs ht hd ih =>
    simp only [Stmt.areLines_eq_all, List.all_append, List.all_cons, List.all_nil, Bool.and_true,
      Bool.and_eq_true] at hl
    have hts : ts <:+: ts ++ (words ++ trailing.toList) := List.infix_append' [] _ _
    rw [withinAll_concat hl.2, hs]
    refine List.forall_mem_append.mpr
      ⟨fun s' hs' => (ih (by simpa using hl.1) s' hs').mono hts, List.forall_mem_singleton.mpr ?_⟩
    exact ⟨gap, trailing, h.suffix.isInfix.trans hts, h.all_isGap,
      fun c hc => ⟨by simp [Option.mem_def.mp hc], ht c hc⟩, hd⟩
  | @group ts ss gap head body dropped tail n s trailing h hw hn hb hc ht hd ih ihb =>
    simp only [Stmt.areLines_eq_all, List.all_append, List.all_cons, List.all_nil, Bool.and_true,
      Bool.and_eq_true] at hl
    have hts : ts <:+: ts ++ (head ++ n :: (body ++ tail) ++ trailing.toList) :=
      List.infix_append' [] _ _
    have hbody : body <:+: ts ++ (head ++ n :: (body ++ tail) ++ trailing.toList) :=
      ⟨ts ++ head ++ [n], tail ++ trailing.toList, by simp⟩
    rw [withinAll_concat hl.2]
    refine List.forall_mem_append.mpr
      ⟨fun s' hs' => (ih (by simpa using hl.1) s' hs').mono hts, List.forall_mem_cons.mpr ⟨?_, ?_⟩⟩
    · exact ⟨gap, trailing, h.suffix.isInfix.trans hts, h.all_isGap,
        fun c hc => ⟨by simp [Option.mem_def.mp hc], ht c hc⟩, hd⟩
    · exact fun s' hs' => (ihb (Stmt.areLines_lines hl.2) s' hs').mono hbody

end Token
end KnittingPattern
