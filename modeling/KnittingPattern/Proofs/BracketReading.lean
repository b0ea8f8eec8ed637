import KnittingPattern.Proofs.ReaderGrammar
import KnittingPattern.Proofs.PatternWriting

/-! # Reading back bracket lists

A reader that is given the lexemes of a bracket list reads this list, whatever it has read before
and whatever follows.  What follows may matter to the class of one token, for only the next token
tells a stitch without brackets from one with brackets.  Main definition: `Reader.Reads`.  Main
theorem: `Reader.reads_brackets`. -/

namespace KnittingPattern

open Token (Kind)

/-- Lexemes without blanks. -/
def Lexeme.inked (ls : List Lexeme) : List Lexeme := ls.filter fun l => l.kind != .whitespace

theorem Lexeme.inked_cons {l : Lexeme} (ls : List Lexeme) (h : l.kind != .whitespace) :
    inked (l :: ls) = l :: inked ls :=
  List.filter_cons_of_pos h

theorem Lexeme.inked_cons_of_blank {l : Lexeme} (ls : List Lexeme) (h : l.kind = .whitespace) :
    inked (l :: ls) = inked ls :=
  List.filter_cons_of_neg (by simp [h])

theorem TokenStream.map_lexeme_visible (source : Nat) (text : String) :
    (visible source text).map Token.lexeme = Lexeme.inked (Lexeme.scan text.toList) := by
  rw [← Token.map_lexeme_place source .start (Lexeme.scan text.toList), Lexeme.inked,
    List.filter_map]
  rfl

theorem Decimal.ofDigits_toDigits (n : Nat) : Decimal.ofDigits (Nat.toDigits 10 n) = n :=
  Nat.ofDigitChars_ten_toDigits

theorem Reader.amount?_toString {n : Int} (h0 : 0 ≤ n)
    (hlt : n.toNat < Nat.pow 2 63) :
    amount? (toString n.toNat) = some (.whole n) := by
  have hd : ∀ c ∈ Nat.toDigits 10 n.toNat, c.isDigit := fun c hc =>
    Nat.isDigit_of_mem_toDigits (by decide) (by decide) hc
  have hp : (Nat.toDigits 10 n.toNat).all Lexeme.isNumberPart := by
    rw [List.all_eq_true]
    exact fun c hc => Lexeme.isNumberPart_of_isDigit (hd c hc)
  have hn : Decimal.natural? (Nat.toDigits 10 n.toNat) = some n.toNat := by
    have ha : (Nat.toDigits 10 n.toNat).all Decimal.isDigit := by
      rw [List.all_eq_true]
      intro c hc
      simpa [Decimal.isDigit, Char.isDigit, Char.le_def] using hd c hc
    simp [Decimal.natural?, ha, Decimal.ofDigits_toDigits]
  have hi : Decimal.int64? (Nat.toDigits 10 n.toNat) = some n := by
    simp only [Decimal.int64?, Decimal.splitSign_of_numberParts hp, hn, hlt,
      Option.bind_eq_bind, Option.bind_some, Bool.false_eq_true, if_false, if_true]
    exact congrArg some (Int.toNat_of_nonneg h0)
  simp [amount?, hi]

namespace Reader

/-- Tokens with these lexemes are read, blanks apart, and the reader is then as it should be. -/
def Reads (Q : Reader → Prop) (r : Reader) (ls : List Lexeme) : Prop :=
  ∀ ts : List Token, ts.map Token.lexeme = Lexeme.inked ls → ∃ q, r.run ts = .ok q ∧ Q q

/-- The first lexeme that is no blank has one of these classes. -/
def Next (ks : List Kind) (ls : List Lexeme) : Prop :=
  ∃ l ls', Lexeme.inked ls = l :: ls' ∧ l.kind ∈ ks

variable {Q : Reader → Prop} {r : Reader} {ls : List Lexeme} {ks : List Kind}

theorem Reads.nil (h : Q r) : Reads Q r [] := by
  intro ts hts
  obtain rfl : ts = [] := List.map_eq_nil_iff.mp hts
  exact ⟨r, rfl, h⟩

theorem Reads.blank (h : Reads Q r ls) : Reads Q r (Lexeme.sign .whitespace :: ls) := h

theorem Reads.cons {l : Lexeme} (hl : l.kind != .whitespace)
    (h : ∀ t, t.kind = l.kind → t.literal = l.text → ∃ q, r.step t = .ok q ∧ Reads Q q ls) :
    Reads Q r (l :: ls) := by
  intro ts hts
  rw [Lexeme.inked_cons ls hl] at hts
  obtain ⟨t, ts, rfl, ht, hts⟩ := List.map_eq_cons_iff.mp hts
  obtain ⟨q, hq, hr⟩ := h t (congrArg Lexeme.kind ht) (congrArg Lexeme.text ht)
  rw [run_cons ts hq]
  exact hr ts hts

theorem Reads.sign {k : Kind} {q : Token → Reader} (hk : k != .whitespace)
    (hs : ∀ t, t.kind = k → r.step t = .ok (q t)) (h : ∀ t, t.kind = k → Reads Q (q t) ls) :
    Reads Q r (Lexeme.sign k :: ls) :=
  .cons hk fun t ht _ => ⟨q t, hs t ht, h t ht⟩

theorem Reads.word {s : String} {q : Token → Reader}
    (hs : ∀ t, t.kind = .identifier → t.literal = s → r.step t = .ok (q t))
    (h : ∀ t, t.literal = s → Reads Q (q t) ls) : Reads Q r (Lexeme.word s :: ls) :=
  .cons rfl fun t ht hl => ⟨q t, hs t ht hl, h t hl⟩

/-- A blank may be there or not. -/
theorem Reads.gap {b : Bool} (h : Reads Q r ls) :
    Reads Q r ((if b then [] else [Lexeme.sign .whitespace]) ++ ls) := by
  cases b <;> exact h

theorem Next.gap {b : Bool} (h : Next ks ls) :
    Next ks ((if b then [] else [Lexeme.sign .whitespace]) ++ ls) := by
  cases b <;> exact h

theorem Next.cons {l : Lexeme} (ls : List Lexeme) (hl : l.kind != .whitespace) (hk : l.kind ∈ ks) :
    Next ks (l :: ls) :=
  ⟨l, Lexeme.inked ls, Lexeme.inked_cons ls hl, hk⟩

theorem Next.mono {ks' : List Kind} (h : Next ks ls) (hk : ∀ k ∈ ks, k ∈ ks') : Next ks' ls := by
  obtain ⟨l, rest, hl, hl'⟩ := h
  exact ⟨l, rest, hl, hk _ hl'⟩

theorem Next.append (h : Next ks ls) (ls' : List Lexeme) : Next ks (ls ++ ls') := by
  obtain ⟨l, rest, hl, hk⟩ := h
  refine ⟨l, rest ++ Lexeme.inked ls', ?_, hk⟩
  rw [Lexeme.inked, List.filter_append]
  exact congrArg (· ++ Lexeme.inked ls') hl

/-- Two readers that do the same with the next token are as good as each other. -/
theorem Reads.of_step_eq {r' : Reader} (hn : Next ks ls)
    (hs : ∀ t, t.kind ∈ ks → r.step t = r'.step t) (h : Reads Q r' ls) : Reads Q r ls := by
  obtain ⟨l, rest, hl, hk⟩ := hn
  intro ts hts
  obtain ⟨t, ts', rfl, ht, -⟩ := List.map_eq_cons_iff.mp (hts.trans hl)
  obtain ⟨q, hq, hQ⟩ := h _ hts
  refine ⟨q, ?_, hQ⟩
  have hst := hs t (by rw [← ht] at hk; exact hk)
  unfold run at hq ⊢
  rw [List.foldlM_cons] at hq ⊢
  rw [hst, hq]

/-- The reader at another place. -/
def moved (r : Reader) (p : Place) : Reader := { r with place := p }

section

variable (r : Reader) (p : Place) (t : Token)

@[simp] theorem goto_eq_moved : r.goto p = .ok (r.moved p) := rfl

@[simp] theorem step_elements (line : RowLine) :
    (r.moved (.elements line)).step t = r.elements line t := rfl

@[simp] theorem step_stitch (line : RowLine) (id : Identifier) :
    (r.moved (.stitch line id)).step t = r.stitch line id t := rfl

@[simp] theorem step_closed (line : RowLine) (es : List Expr) :
    (r.moved (.closed line es)).step t = r.closed line es t := rfl

@[simp] theorem step_groupClosed (g : OpenGroup) (rbrace : Position) (lines : List Stmt) :
    (r.moved (.groupClosed g rbrace lines)).step t = r.groupClosed g rbrace lines t := rfl

@[simp] theorem step_args (owner : Owner) (as : List Expr) (place : ArgumentPlace) :
    (r.moved (.args owner as place)).step t = r.args owner as place t := rfl

@[simp] theorem step_between (desc : Description) :
    (r.moved (.between .none desc)).step t = r.statement desc t := rfl

@[simp] theorem step_word (desc : Description) (id : Identifier) :
    (r.moved (.word desc id)).step t = r.word desc id t := rfl

@[simp] theorem step_target (desc : Description) (lhs : Identifier) :
    (r.moved (.target desc lhs)).step t = r.target desc lhs t := rfl

@[simp] theorem step_body (desc : Description) (lhs : Identifier) :
    (r.moved (.body desc lhs)).step t = r.body desc lhs t := rfl

@[simp] theorem step_brace (role : Role) (desc : Description) (lbrace : Position) :
    (r.moved (.brace role desc lbrace)).step t = r.brace role desc lbrace t := rfl

@[simp] theorem step_lineEnd (s : Stmt) : (r.moved (.lineEnd s)).step t = r.lineEnd s t := rfl

end

variable {owner : Owner} {as : List Expr} {t : Token}

theorem reads_measure {s : Size} (hs : s.measure = .count) {m : Measure} (hm : m ≠ .toEnd)
    (hn : Next [.comma, .rightParen] ls)
    (h : Reads Q (r.moved (.args owner (as ++ [Expr.size (s.measured m)]) .done)) ls) :
    Reads Q (r.moved (.args owner as (.value s))) (m.written ++ ls) := by
  cases m with
  | millimetres =>
    refine .blank (.word ?_ fun _ _ => h)
    intro t ht hl
    simp [args, afterValue, ht, hl, Measure.ofName?, Size.measured]
  | centimetres =>
    refine .blank (.word ?_ fun _ _ => h)
    intro t ht hl
    simp [args, afterValue, ht, hl, Measure.ofName?, Size.measured]
  | inches =>
    refine .blank (.sign rfl ?_ fun _ _ => h)
    intro t ht
    simp [args, afterValue, ht, Size.measured]
  | feet =>
    refine .blank (.sign rfl ?_ fun _ _ => h)
    intro t ht
    simp [args, afterValue, ht, Size.measured]
  | count =>
    have hsize : s.measured .count = s := by rw [Size.measured, ← hs]
    rw [hsize] at h
    refine .of_step_eq hn ?_ h
    intro t ht
    have hk : t.kind = .comma ∨ t.kind = .rightParen := by simpa using ht
    rcases hk with hk | hk <;> simp [args, afterValue, hk]
  | toEnd => contradiction

theorem next_measure {m : Measure} (hc : m ≠ .count) (he : m ≠ .toEnd) :
    Next [.identifier, .feet, .inches] m.written := by
  cases m with
  | count | toEnd => contradiction
  | millimetres | centimetres | inches | feet => exact ⟨_, [], rfl, by decide⟩

/-- A size is read at any place that takes its first token for one. -/
theorem reads_size {p : Place} {s : Size} (hs : s.isWritten false) {x : Expectation}
    (hp : ∀ t, t.kind = s.amount.written.kind →
      (r.moved p).step t = r.sizeValue owner as s.before t x)
    (hn : Next [.comma, .rightParen] ls)
    (h : ∀ s' : Size, s'.map (fun _ => .start) = s.map (fun _ => .start) →
      Reads Q (r.moved (.args owner (as ++ [Expr.size s']) .done)) ls) :
    Reads Q (r.moved p) (s.amount.written :: (s.measure.written ++ ls)) := by
  rcases s with ⟨p₀, a, m, before⟩
  cases a with
  | whole n =>
    simp only [Size.isWritten, Bool.and_eq_true, decide_eq_true_eq, bne_iff_ne] at hs
    refine .cons rfl fun t ht hl => ?_
    have ha : amount? t.literal = some (.whole n) := by
      rw [hl]
      exact amount?_toString hs.1.1 hs.1.2
    have hk : t.kind = .number := ht
    refine ⟨r.moved (.args owner as (.value ⟨t.position, .whole n, .count, before⟩)), ?_, ?_⟩
    · rw [hp t ht]
      simp [sizeValue, hk, ha]
    · exact reads_measure rfl hs.2 hn (h ⟨t.position, .whole n, m, before⟩ rfl)
  | decimal y => simp [Size.isWritten] at hs
  | named id =>
    simp only [Size.isWritten, Bool.and_eq_true, bne_iff_ne] at hs
    refine .cons rfl fun t ht hl => ?_
    have hk : t.kind = .identifier := ht
    refine ⟨r.moved (.args owner as (.value ⟨t.position, .named (identifier t), .count, before⟩)),
      ?_, ?_⟩
    · rw [hp t ht]
      simp [sizeValue, hk]
    · refine reads_measure rfl hs.1.2 hn (h ⟨t.position, .named (identifier t), m, before⟩ ?_)
      simp [Size.map, Amount.map, Identifier.map, identifier, show t.literal = id.name from hl]
  | unstated =>
    obtain rfl : m = .toEnd := by simpa [Size.isWritten] using hs
    refine .cons rfl fun t ht hl => ?_
    have hk : t.kind = .asterisk := ht
    refine ⟨r.moved (.args owner (as ++ [Expr.size ⟨t.position, .unstated, .toEnd, before⟩]) .done),
      ?_, h ⟨t.position, .unstated, .toEnd, before⟩ rfl⟩
    rw [hp t ht]
    simp [sizeValue, hk]

/-- An argument is read after the bracket or a comma. -/
theorem reads_argument {a : Expr} (ha : a.isArgument false) {place : ArgumentPlace}
    (hp : place = .first ∨ place = .next) (hn : Next [.comma, .rightParen] ls)
    (h : ∀ a' : Expr, a'.unplaced = a.plain →
      Reads Q (r.moved (.args owner (as ++ [a']) .done)) ls) :
    Reads Q (r.moved (.args owner as place)) (a.writtenArgument ++ ls) := by
  have hstep : ∀ t, t.kind ≠ .rightParen →
      (r.moved (.args owner as place)).step t = r.argument owner as t := by
    intro t ht
    rcases hp with rfl | rfl
    · simp [args, ht]
    · rfl
  have hname : ∀ t, t.kind = .identifier → (r.moved (.args owner as place)).step t =
      .ok (r.moved (.args owner as (.name (identifier t)))) := by
    intro t ht
    rw [hstep t (by simp [ht])]
    simp [argument, ht]
  cases a with
  | ident id =>
    refine .word (fun t ht _ => hname t ht) fun t hl => ?_
    refine .of_step_eq hn ?_ (h (.ident (identifier t)) ?_)
    · intro u hu
      have hk : u.kind = .comma ∨ u.kind = .rightParen := by simpa using hu
      rcases hk with hk | hk <;> simp [args, hk]
    · simp [Expr.unplaced, Expr.plain, Expr.map, Identifier.map, identifier, hl]
  | size s =>
    have hsize : ∀ s' : Size, s'.map (fun _ => .start) = s.map (fun _ => .start) →
        Reads Q (r.moved (.args owner (as ++ [Expr.size s']) .done)) ls := fun s' hs' =>
      h (.size s') (congrArg Expr.size hs')
    have hw : s.isWritten false := ha
    rw [Expr.writtenArgument, Size.written, List.append_assoc, List.cons_append]
    cases hb : s.before with
    | true =>
      have hminus : ∀ t, t.kind = .minus → (r.moved (.args owner as place)).step t =
          .ok (r.moved (.args owner as .minus)) := by
        intro t ht
        rw [hstep t (by simp [ht])]
        simp [argument, ht]
      refine .sign rfl hminus fun _ _ => reads_size (x := .sizeValue) hw (fun t _ => ?_) hn hsize
      rw [hb]
      rfl
    | false =>
      cases hs : s.amount with
      | named id =>
        simp only [Size.isWritten, hs, hb, Bool.and_eq_true, bne_iff_ne, Bool.or_false] at hw
        refine .word (fun t ht _ => hname t ht) fun t hl => ?_
        have hv := reads_measure (s := ⟨t.position, .named (identifier t), .count, false⟩) rfl
          hw.1.2 hn (hsize ⟨t.position, .named (identifier t), s.measure, false⟩ ?_)
        · refine .of_step_eq ((next_measure hw.2 hw.1.2).append ls) ?_ hv
          · intro u hu
            have hk : u.kind = .identifier ∨ u.kind = .feet ∨ u.kind = .inches := by
              simpa using hu
            rcases hk with hk | hk | hk <;> simp [args, hk] <;> rfl
        · simp [Size.map, Amount.map, Identifier.map, identifier, hs, hb, hl]
      | whole n =>
        rw [← hs]
        refine reads_size (x := .argument) hw (fun t ht => ?_) hn hsize
        have hk : t.kind = .number := by rwa [hs] at ht
        rw [hstep t (by simp [hk]), argument, hk, hb]
      | unstated =>
        rw [← hs]
        refine reads_size (x := .argument) hw (fun t ht => ?_) hn hsize
        have hk : t.kind = .asterisk := by rwa [hs] at ht
        rw [hstep t (by simp [hk]), argument, hk, hb]
      | decimal y => simp [Size.isWritten, hs] at hw
  | _ => cases ha

theorem step_done_comma (ht : t.kind = .comma) :
    (r.moved (.args owner as .done)).step t = .ok (r.moved (.args owner as .next)) := by
  simp [args, afterArgument, ht]

theorem step_done_rightParen (ht : t.kind = .rightParen) :
    (r.moved (.args owner as .done)).step t = .ok (r.moved (afterArgs owner as)) := by
  simp [args, afterArgument, ht]

theorem reads_arguments {new : List Expr} (hnew : new.all (Expr.isArgument false))
    (hne : new ≠ []) {place : ArgumentPlace} (hp : place = .first ∨ place = .next)
    (h : ∀ new' : List Expr, new'.map Expr.unplaced = new.map Expr.plain →
      Reads Q (r.moved (afterArgs owner (as ++ new'))) ls) :
    Reads Q (r.moved (.args owner as place))
      (Expr.writtenArguments new ++ Lexeme.sign .rightParen :: ls) := by
  induction new generalizing as place with
  | nil => contradiction
  | cons a new ih =>
    obtain ⟨ha, hnew⟩ := (Bool.and_eq_true _ _).mp hnew
    cases new with
    | nil =>
      refine reads_argument ha hp (.cons ls rfl (by decide)) fun a' ha' => ?_
      exact .sign rfl (fun t ht => step_done_rightParen ht) fun _ _ => h [a'] (by simp [ha'])
    | cons b new =>
      rw [Expr.writtenArguments, List.append_assoc, List.cons_append, List.cons_append]
      refine reads_argument ha hp (.cons _ rfl (by decide)) fun a' ha' => ?_
      refine .sign rfl (fun t ht => step_done_comma ht) fun _ _ => .blank ?_
      refine ih hnew (List.cons_ne_nil b new) (.inr rfl) fun new' hnew' => ?_
      rw [List.append_assoc]
      exact h (a' :: new') (by simpa [ha'] using hnew')

/-- The place before a bracket list. -/
def ownerPlace : Owner → Place
  | .stitch line id => .stitch line id
  | .inlineRow line es => .closed line es
  | .group g rbrace lines => .groupClosed g rbrace lines

theorem step_leftParen (ht : t.kind = .leftParen) :
    (r.moved (ownerPlace owner)).step t = .ok (r.moved (.args owner [] .first)) := by
  cases owner with
  | stitch line id => simp [ownerPlace, stitch, ht]
  | inlineRow line es => simp [ownerPlace, closed, ht]
  | group g rbrace lines => simp [ownerPlace, groupClosed, ht]

/-- The classes of tokens that may follow a bracket list. -/
def following : List Kind := [.identifier, .leftBrace, .rightBrace, .newline]

theorem step_ownerPlace (ht : t.kind ∈ following) :
    (r.moved (ownerPlace owner)).step t = (r.moved (afterArgs owner [])).step t := by
  have hk : t.kind = .identifier ∨ t.kind = .leftBrace ∨ t.kind = .rightBrace ∨
      t.kind = .newline := by
    simpa [following] using ht
  cases owner with
  | stitch line id => rcases hk with hk | hk | hk | hk <;> simp [ownerPlace, afterArgs, stitch, hk]
  | inlineRow line es =>
    rcases hk with hk | hk | hk | hk <;> simp [ownerPlace, afterArgs, closed, hk]
  | group g rbrace lines =>
    rcases hk with hk | hk | hk | hk <;> simp [ownerPlace, afterArgs, groupClosed, hk]

theorem reads_brackets (explicit : Bool) (owner : Owner) {new : List Expr}
    (hnew : new.all (Expr.isArgument false)) (hn : Next following ls)
    (h : ∀ new' : List Expr, new'.map Expr.unplaced = new.map Expr.plain →
      Reads Q (r.moved (afterArgs owner new')) ls) :
    Reads Q (r.moved (ownerPlace owner)) (Expr.writtenBrackets explicit new ++ ls) := by
  cases new with
  | nil =>
    have hend := h [] rfl
    cases explicit with
    | false => exact .of_step_eq hn (fun t ht => step_ownerPlace ht) hend
    | true =>
      refine .sign rfl (fun t ht => step_leftParen ht) fun _ _ => ?_
      refine .sign rfl (fun t ht => ?_) fun _ _ => hend
      simp [args, ht]
  | cons a new =>
    simp only [Expr.writtenBrackets, List.isEmpty_cons, Bool.false_and, Bool.false_eq_true,
      if_false, List.cons_append, List.append_assoc, List.nil_append]
    refine .sign rfl (fun t ht => step_leftParen ht) fun _ _ => ?_
    exact reads_arguments hnew (List.cons_ne_nil a new) (.inl rfl) h

end Reader
end KnittingPattern
