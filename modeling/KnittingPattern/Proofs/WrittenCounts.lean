import KnittingPattern.Proofs.PatternNodes
import KnittingPattern.Proofs.StitchSequence
import KnittingPattern.Proofs.WrittenNumbers

/-! # Counts as they are written

A count is read from the text that an argument is written as, when names stand for what they are
synonyms of.  All the same only whole numbers are counts: every name begins with a letter, a decimal
has a point, a measure has its mark behind the amount, and what is to be reached has words before
it.  Main theorem: `Pattern.repeatCount?_texts`. -/

namespace KnittingPattern

/-- A number has only digits, and perhaps a plus. -/
theorem Decimal.of_nat64? {cs : List Char} {n : Nat} (h : nat64? cs = some n) {c : Char}
    (hc : c ∈ cs) : isDigit c ∨ c = '+' := by
  obtain ⟨k, hk, -⟩ := Option.bind_eq_some_iff.mp h
  have hdigits {ds : List Char} (hn : natural? ds = some k) : ∀ d ∈ ds, isDigit d := by
    unfold natural? at hn
    split at hn
    · exact List.all_eq_true.mp (‹_ ∧ _›).2
    · cases hn
  split at hk
  · rcases List.mem_cons.mp hc with rfl | hc
    · exact .inr rfl
    · exact .inl (hdigits hk c hc)
  · exact .inl (hdigits hk c hc)

/-- A text with a character that no number has. -/
def Lettered (s : String) : Prop := ∃ c ∈ s.toList, Decimal.isDigit c = false ∧ c ≠ '+'

namespace Lettered

variable {s t : String}

theorem append_left (h : Lettered s) (t : String) : Lettered (s ++ t) := by
  obtain ⟨c, hc, hd⟩ := h
  exact ⟨c, by simp [hc], hd⟩

theorem append_right (h : Lettered t) (s : String) : Lettered (s ++ t) := by
  obtain ⟨c, hc, hd⟩ := h
  exact ⟨c, by simp [hc], hd⟩

theorem of_isWord (h : isWord s) : Lettered s := by
  obtain ⟨c, hc, hl⟩ := exists_letter_of_isWord h
  refine ⟨c, List.mem_of_head? hc, Bool.eq_false_iff.mpr fun hd => ?_, ?_⟩
  · have hnumber : Lexeme.isNumberPart c := Bool.or_eq_true_iff.mpr (.inl hd)
    rw [Lexeme.isLetter_eq_false_of_numberPart hnumber] at hl
    cases hl
  · rintro rfl
    cases hl

/-- Two decimal places stand behind a point, and what is no finite number is a word. -/
theorem of_binary64 (x : Binary64) : Lettered x.text2 := by
  cases x with
  | nan => exact ⟨'N', by decide, by decide⟩
  | infinite negative => cases negative <;> exact ⟨'i', by decide, by decide⟩
  | finite negative m k canonical =>
    have hpoint : '.' ∈ Binary64.fixed 2 m k := by simp [Binary64.fixed]
    refine ⟨'.', ?_, by decide⟩
    cases negative <;> simpa [Binary64.text2, Binary64.textWith] using hpoint

theorem repeatCount? (h : Lettered s) : repeatCount? [s] = none := by
  obtain ⟨c, hc, hd, hp⟩ := h
  refine Option.filter_eq_none_iff.mpr fun n hn => ?_
  rcases Decimal.of_nat64? hn hc with h | h
  · rw [hd] at h
    cases h
  · exact absurd h hp

end Lettered

/-- A whole number is the count that it writes, unless it is zero. -/
theorem repeatCount?_natCast {k : Nat} (hk : k < Nat.pow 2 63) (n : Nat) :
    repeatCount? [toString (k : Int)] = some n ↔ 1 ≤ n ∧ k = n := by
  have htext : toString (k : Int) = toString k := rfl
  rw [htext]
  rcases Nat.eq_zero_or_pos k with rfl | hpos
  · have hzero : repeatCount? [toString 0] = none := by decide
    rw [hzero]
    constructor
    · intro h
      cases h
    · rintro ⟨hn, rfl⟩
      exact absurd hn (by decide)
  · have hcount := repeatCount?_toString hpos (Nat.lt_trans hk (by decide))
    rw [hcount, Option.some.injEq]
    exact ⟨fun h => ⟨h ▸ hpos, h⟩, And.right⟩

namespace Size

variable {names : Names} {s : Size}

/-- With a measure, or if it is to be reached, a size is no number. -/
theorem lettered_text (h : ¬(s.measure = .count ∧ s.before = false)) : Lettered (s.text names) := by
  have hwords : Lettered "until " ∧ Lettered "before end of row" ∧ Lettered "to end of row" :=
    ⟨⟨'u', by decide⟩, ⟨'b', by decide⟩, ⟨'t', by decide⟩⟩
  have hmark : s.measure ≠ .count → s.isToEnd = false → Lettered s.measure.mark := by
    intro hc he
    cases hm : s.measure with
    | count => exact absurd hm hc
    | toEnd => simp [isToEnd, hm] at he
    | millimetres => exact ⟨'m', by decide⟩
    | centimetres => exact ⟨'c', by decide⟩
    | inches => exact ⟨'"', by decide⟩
    | feet => exact ⟨'\'', by decide⟩
  unfold text
  split
  · split
    · exact hwords.2.1
    · exact hwords.2.2
  · rename_i he
    split
    · exact hwords.1.append_left _
    · rename_i hb
      have hc : s.measure ≠ .count := fun hc => h ⟨hc, Bool.eq_false_iff.mpr hb⟩
      exact (hmark hc (Bool.eq_false_iff.mpr he)).append_right _

/-- A size is a count if it is a whole number from one on and nothing else. -/
theorem repeatCount?_text (hs : s.isWritten true) (n : Nat) :
    repeatCount? [s.text names] = some n ↔
      1 ≤ n ∧ ∃ p, s = ⟨p, .whole n, .count, false⟩ := by
  have hnone (h : Lettered (s.text names)) (hne : ∀ p, s ≠ ⟨p, .whole n, .count, false⟩) :
      repeatCount? [s.text names] = some n ↔ 1 ≤ n ∧ ∃ p, s = ⟨p, .whole n, .count, false⟩ := by
    rw [h.repeatCount?]
    constructor
    · intro h
      cases h
    · rintro ⟨-, p, hp⟩
      exact absurd hp (hne p)
  by_cases hbare : s.measure = .count ∧ s.before = false
  · obtain ⟨p, a, m, b⟩ := s
    obtain ⟨rfl, rfl⟩ : m = .count ∧ b = false := hbare
    have htext : text names ⟨p, a, .count, false⟩ = a.text names := String.append_empty
    rw [htext] at hnone ⊢
    cases a with
    | whole k =>
      simp only [isWritten, Bool.and_eq_true, decide_eq_true_eq] at hs
      obtain ⟨k, rfl⟩ := Int.eq_ofNat_of_zero_le hs.1.1
      have hk : k < Nat.pow 2 63 := hs.1.2
      rw [Amount.text, repeatCount?_natCast hk]
      refine and_congr_right fun _ => ⟨fun h => ⟨p, by rw [h]⟩, fun h => ?_⟩
      obtain ⟨q, hq⟩ := h
      have hkn : (k : Int) = n := Amount.whole.inj (Size.mk.inj hq).2.1
      exact Int.ofNat_inj.mp hkn
    | decimal x => exact hnone (.of_binary64 x) (by simp)
    | named id => simp [isWritten] at hs
    | unstated => simp [isWritten] at hs
  · refine hnone (lettered_text hbare) fun p hp => hbare ?_
    rw [hp]
    exact ⟨rfl, rfl⟩

end Size

/-- An argument is a count if it is a size that is one. -/
theorem Expr.repeatCount?_text {names : Names} (hn : names.InGrammar) {e : Expr}
    (he : e.isArgument true) (n : Nat) :
    repeatCount? [e.text names] = some n ↔
      1 ≤ n ∧ ∃ p, e = .size ⟨p, .whole n, .count, false⟩ := by
  cases e with
  | ident id =>
    have hword : Lettered (names.rendering id) := .of_isWord (hn.isWord_rendering he)
    simp [text, hword.repeatCount?]
  | size s =>
    simpa [text] using Size.repeatCount?_text he n
  | _ => cases he

/-- The counts of a pattern that is read are the bracket lists of one whole number from one on.
Whatever names stand for, no other bracket list is taken for a count. -/
theorem Pattern.repeatCount?_texts {texts : List String} {b : Block} (h : ofSources texts = .ok b)
    {args : List Expr} (ha : args ∈ b.bracketLists) (n : Nat) :
    repeatCount? (Brackets.texts (Names.ofBlock b) args) = some n ↔
      1 ≤ n ∧ ∃ p, args = [.size ⟨p, .whole n, .count, false⟩] := by
  have hn := Names.inGrammar_ofBlock (areLines_of_ofSources h)
  have hargs := isArgument_of_mem_bracketLists h ha
  match args with
  | [] => simp [Brackets.texts, repeatCount?]
  | [e] =>
    have he : e.isArgument true := by simpa using hargs
    simpa [Brackets.texts] using e.repeatCount?_text hn he n
  | e :: e' :: es => simp [Brackets.texts, repeatCount?]

/-- A row to be knitted twice, of stitches with a name, with a measure and with two arguments. -/
def Block.countedRow : Block :=
  let stitch (p : Position) (s : String) (args : List Expr) : Expr := .stitch p ⟨p, s⟩ args
  let whole (p : Position) (n : Int) (m : Measure) : Expr := .size ⟨p, .whole n, m, false⟩
  ⟨[.synonym ⟨⟨1, 1⟩, "n"⟩ ⟨⟨1, 6⟩, "inf"⟩ .none,
    .row [stitch ⟨2, 2⟩ "k" [.ident ⟨⟨2, 4⟩, "n"⟩], stitch ⟨2, 7⟩ "p" [whole ⟨2, 9⟩ 3 .centimetres],
      stitch ⟨2, 14⟩ "yo" [whole ⟨2, 17⟩ 4 .count, whole ⟨2, 20⟩ 5 .count]]
    [whole ⟨2, 24⟩ 2 .count] .none], ⟨1, 1⟩, ⟨3, 0⟩, .none⟩

theorem Pattern.repeatCount?_texts_countedRow :
    ofSources ["n := inf\n\x7bk(n) p(3cm) yo(4, 5)\x7d(2)\n"] = .ok Block.countedRow ∧
    Block.countedRow.bracketLists.map (Brackets.texts (Names.ofBlock Block.countedRow)) =
      [["2"], ["inf"], ["3cm"], ["4", "5"]] ∧
    repeatCount? ["2"] = some 2 ∧ ∀ n, repeatCount? ["inf"] ≠ some n := by
  have h : ofSources ["n := inf\n\x7bk(n) p(3cm) yo(4, 5)\x7d(2)\n"] = .ok Block.countedRow := rfl
  have htwo : [Expr.size ⟨⟨2, 24⟩, .whole 2, .count, false⟩] ∈ Block.countedRow.bracketLists :=
    .head _
  have hn : [Expr.ident ⟨⟨2, 4⟩, "n"⟩] ∈ Block.countedRow.bracketLists := .tail _ (.head _)
  have hcount := (repeatCount?_texts h htwo 2).mpr ⟨by decide, _, rfl⟩
  exact ⟨h, by decide, hcount, fun n => (repeatCount?_texts h hn n).not.mpr (by simp)⟩

end KnittingPattern
