import KnittingPattern.Proofs.BinaryRounding
import KnittingPattern.Proofs.WrittenNumbers

/-! # Binary numbers read back

The shortest text of a binary number is one that reads back, and its digits are read as they were
written.  Main theorem: `Binary64.ofChars?_text`. -/

namespace KnittingPattern

namespace Decimal

theorem ofDigits_append (as bs : List Char) :
    ofDigits (as ++ bs) = ofDigits as * 10 ^ bs.length + ofDigits bs := by
  have h : Nat.ofDigitChars 10 bs (ofDigits as) =
      10 ^ bs.length * ofDigits as + Nat.ofDigitChars 10 bs 0 :=
    Nat.ofDigitChars_eq_ofDigitChars_zero
  rw [Nat.mul_comm, ← show Nat.ofDigitChars 10 bs 0 = ofDigits bs from rfl, ← h]
  exact List.foldl_append

theorem ofDigits_replicate_zero (n : Nat) : ofDigits (List.replicate n '0') = 0 := by
  have h : Nat.ofDigitChars 10 (List.replicate n '0') 0 = 10 ^ n * 0 :=
    Nat.ofDigitChars_replicate_zero
  rwa [Nat.mul_zero] at h

theorem width_le_iff {n places : Nat} (h : 0 < places) : width n ≤ places ↔ n < 10 ^ places :=
  Nat.length_toDigits_le_iff (by decide) h

/-- The first digit of a number is not a zero. -/
theorem pow_width_le {n : Nat} (h : n ≠ 0) : 10 ^ (width n - 1) ≤ n := by
  by_contra hlt
  by_cases hw : width n - 1 = 0
  · rw [hw] at hlt
    omega
  · have := (width_le_iff (Nat.pos_of_ne_zero hw)).mpr (Nat.not_le.mp hlt)
    omega

theorem lt_pow_width (n : Nat) : n < 10 ^ width n :=
  (width_le_iff Nat.length_toDigits_pos).mp (Nat.le_refl _)

/-- How far the first digit of a number is from the point, if the number has `l` digits behind the
point and lies between two powers of ten. -/
theorem width_bounds {places n l low high : Nat} (hl : l ≤ places)
    (hlow : 10 ^ (places - low) ≤ n * 10 ^ (places - l))
    (hhigh : n * 10 ^ (places - l) < 10 ^ (places + high)) (h : low ≤ places) :
    n ≠ 0 ∧ l < width n + low ∧ width n ≤ l + high := by
  have hn : n ≠ 0 := by
    rintro rfl
    have : 0 < 10 ^ (places - low) := Nat.pow_pos (by decide)
    omega
  have h1 : 10 ^ (places - low) < 10 ^ (width n + (places - l)) := by
    rw [Nat.pow_add]
    exact Nat.lt_of_le_of_lt hlow
      (Nat.mul_lt_mul_of_pos_right (lt_pow_width n) (Nat.pow_pos (by decide)))
  have h2 : 10 ^ (width n - 1 + (places - l)) < 10 ^ (places + high) := by
    rw [Nat.pow_add]
    exact Nat.lt_of_le_of_lt (Nat.mul_le_mul_right _ (pow_width_le hn)) hhigh
  rw [Nat.pow_lt_pow_iff_right (by decide)] at h1 h2
  omega

theorem length_padded {places n : Nat} (h : width n ≤ places) :
    (padded places n).length = places := by
  rw [padded, List.length_append, List.length_replicate]
  exact Nat.sub_add_cancel h

theorem all_isDigit_padded (places n : Nat) : (padded places n).all isDigit := by
  rw [padded, List.all_append, all_isDigit_toDigits, Bool.and_true, List.all_replicate]
  simp [isDigit]

theorem ofDigits_padded (places n : Nat) : ofDigits (padded places n) = n := by
  have hn : ofDigits (Nat.toDigits 10 n) = n := Nat.ofDigitChars_ten_toDigits
  rw [padded, ofDigits_append, ofDigits_replicate_zero, hn]
  omega

/-- A row of digits is one that ends in no zero, and zeros. -/
theorem exists_replicate_zero (ds : List Char) :
    ∃ z, ds = (ds.reverse.dropWhile (· = '0')).reverse ++ List.replicate z '0' := by
  have hz : ∀ c ∈ ds.reverse.takeWhile (· = '0'), c = '0' := fun c hc => by
    simpa using List.all_eq_true.mp List.all_takeWhile c hc
  have hd : ds = (ds.reverse.takeWhile (· = '0') ++ ds.reverse.dropWhile (· = '0')).reverse := by
    rw [List.takeWhile_append_dropWhile, List.reverse_reverse]
  refine ⟨(ds.reverse.takeWhile (· = '0')).length, ?_⟩
  conv_lhs => rw [hd, List.reverse_append, List.eq_replicate_of_mem hz, List.reverse_replicate]

end Decimal

namespace Binary64

theorem gap_pos (k p : Nat) : 0 < 2 ^ k * 5 ^ p :=
  Nat.mul_pos (Nat.pow_pos (by decide)) (Nat.pow_pos (by decide))

theorem gap_le_gap {k scale : Nat} (h : k ≤ scale) (p : Nat) : 2 ^ k * 5 ^ p ≤ 2 ^ scale * 5 ^ p :=
  Nat.mul_le_mul_right _ (Nat.pow_le_pow_right (by decide) h)

theorem readsBack_units (m k : Nat) : readsBack m k (units m k) := by
  have hg : 0 < 2 * (2 ^ k * 5 ^ places) := Nat.mul_pos (by decide) (gap_pos k places)
  rw [readsBack]
  simp only [Nat.pow_eq, Nat.le_refl, Nat.sub_self, Nat.mul_zero, Nat.lt_irrefl, false_and,
    if_false, Nat.zero_le, hg, decide_true, ite_self]

theorem readsBack_of_onGrid? {m k grid n : Nat} (h : onGrid? m k grid = some n) :
    readsBack m k n := by
  rw [onGrid?] at h
  generalize units m k / grid * grid = below at h
  generalize (if units m k % grid = 0 then below else below + grid) = above at h
  split at h
  · rename_i hb ha
    obtain rfl := Option.some.inj h
    split
    · exact ha
    · exact hb
  · rename_i hb _
    obtain rfl := Option.some.inj h
    exact hb
  · rename_i _ ha
    obtain rfl := Option.some.inj h
    exact ha
  · cases h

/-- The induction is on how many digits are left out; with none left out it is the number itself. -/
theorem readsBack_shortest (m k : Nat) : readsBack m k (shortest m k) := by
  rw [shortest]
  induction Decimal.width (units m k) - 1 with
  | zero => exact readsBack_units m k
  | succ p ih =>
    rw [shortestFrom]
    cases hg : onGrid? m k (Nat.pow 10 (p + 1)) with
    | none => exact ih
    | some n => exact readsBack_of_onGrid? hg

/-- Digits alone are a whole number. -/
theorem numeral?_digits {ds : List Char} (hd : ds.all Decimal.isDigit) (hne : ds ≠ []) :
    numeral? ds = some (Decimal.ofDigits ds, 0) := by
  simp [numeral?, Decimal.takeWhile_isDigit_self hd, Decimal.dropWhile_isDigit_self hd, hne,
    exponent?]

/-- Each digit behind the point divides by ten. -/
theorem numeral?_fraction {ds fs : List Char} (hd : ds.all Decimal.isDigit)
    (hf : fs.all Decimal.isDigit) (hne : ds ≠ []) :
    numeral? (ds ++ '.' :: fs) = some (Decimal.ofDigits (ds ++ fs), -(fs.length : Int)) := by
  have hpoint : ∀ c ∈ ('.' :: fs).head?, Decimal.isDigit c = false := by
    rintro _ ⟨⟩
    rfl
  simp [numeral?, Decimal.takeWhile_isDigit hd hpoint, Decimal.dropWhile_isDigit hd hpoint,
    Decimal.takeWhile_isDigit_self hf, Decimal.dropWhile_isDigit_self hf, hne, exponent?]

/-- A positional text is read as digits behind the point that are worth what was written. -/
theorem exists_numeral?_positional {places : Nat} (hp : 0 < places) (n : Nat) :
    ∃ N l : Nat, numeral? (positional places n) = some (N, -(l : Int)) ∧ l ≤ places ∧
      N * 10 ^ (places - l) = n := by
  have h10 : 0 < 10 ^ places := Nat.pow_pos (by decide)
  have hw : Decimal.width (n % 10 ^ places) ≤ places :=
    (Decimal.width_le_iff hp).mpr (Nat.mod_lt n h10)
  have hd := Decimal.all_isDigit_toDigits (n / 10 ^ places)
  have hq : Decimal.ofDigits (Nat.toDigits 10 (n / 10 ^ places)) = n / 10 ^ places :=
    Nat.ofDigitChars_ten_toDigits
  have hne : Nat.toDigits 10 (n / 10 ^ places) ≠ [] := Nat.toDigits_ne_nil
  obtain ⟨z, hz⟩ := Decimal.exists_replicate_zero (Decimal.padded places (n % 10 ^ places))
  have hlen := Decimal.length_padded hw
  have hval := Decimal.ofDigits_padded places (n % 10 ^ places)
  have hall := Decimal.all_isDigit_padded places (n % 10 ^ places)
  rw [hz] at hlen hval hall
  simp only [positional, Nat.pow_eq]
  generalize (Decimal.padded places (n % 10 ^ places)).reverse.dropWhile (· = '0') = fs at *
  rw [List.length_append, List.length_replicate] at hlen
  rw [Decimal.ofDigits_append, Decimal.ofDigits_replicate_zero, List.length_replicate,
    Nat.add_zero] at hval
  rw [List.all_append, Bool.and_eq_true] at hall
  have hworth : (n / 10 ^ places * 10 ^ fs.reverse.length + Decimal.ofDigits fs.reverse) *
      10 ^ (places - fs.reverse.length) = n := by
    rw [show places - fs.reverse.length = z by omega, Nat.add_mul, hval, Nat.mul_assoc,
      ← Nat.pow_add, hlen, Nat.mul_comm]
    exact Nat.div_add_mod n _
  refine ⟨_, fs.reverse.length, ?_, by omega, hworth⟩
  split
  · rename_i hf
    subst hf
    rw [List.append_nil, numeral?_digits hd hne, hq]
    simp [Decimal.ofDigits]
  · rw [numeral?_fraction hd hall.1 hne, Decimal.ofDigits_append, hq]

/-- A decimal that is neither very small nor very large is rounded. -/
theorem ofDecimal_eq_ofUnits (negative : Bool) {n l : Nat} (hl : l ≤ places)
    (hlow : 10 ^ (places - 400) ≤ n * 10 ^ (places - l))
    (hhigh : n * 10 ^ (places - l) < 10 ^ (places + 400)) :
    ofDecimal negative n (-(l : Int)) = ofUnits negative (n * 10 ^ (places - l)) := by
  obtain ⟨hn, hfar, hnear⟩ := Decimal.width_bounds hl hlow hhigh (by decide)
  clear hlow hhigh
  have hfar : ¬ (n = 0 ∨ (Decimal.width n : Int) + -(l : Int) < -400) := by omega
  have hnear : ¬ (Decimal.width n : Int) + -(l : Int) > 400 := by omega
  rw [ofDecimal, if_neg hfar, if_neg hnear, ← ofRatio_eq_ofUnits negative n hl]
  split
  · obtain rfl : l = 0 := by omega
    simp
  · simp

/-- What reads back as a number other than zero lies between the least and the largest one. -/
theorem bounds_of_readsBack {m k n : Nat} (hc : Canonical m k) (hm : 0 < m)
    (h : readsBack m k n) : 10 ^ (places - 400) ≤ n ∧ n < 10 ^ (places + 400) := by
  have hm53 : m < 2 ^ 53 := hc.1
  obtain ⟨hgap, hlt⟩ := (near_of_readsBack h).bounds hm (gap_pos k places) hm53
  constructor
  · have hleast : 2 * 10 ^ (places - 400) ≤ 2 ^ 0 * 5 ^ places := by decide +kernel
    have hle := hleast.trans (gap_le_gap (Nat.zero_le k) places)
    exact Nat.le_of_mul_le_mul_left (hle.trans hgap) (by decide)
  · have hlargest : 2 ^ 53 * (2 ^ 2045 * 5 ^ places) < 10 ^ (places + 400) := by decide +kernel
    have hle := Nat.mul_le_mul_left (2 ^ 53) (gap_le_gap hc.2.1 places)
    exact hlt.trans (hle.trans_lt hlargest)

/-- The digits of a number are rounded to the number. -/
theorem ofDecimal_shortest (negative : Bool) {m k n l : Nat} (hc : Canonical m k)
    (hl : l ≤ places) (h : n * 10 ^ (places - l) = shortest m k) :
    ofDecimal negative n (-(l : Int)) = .finite negative m k hc := by
  have hr := readsBack_shortest m k
  rw [← h] at hr
  rcases Nat.eq_zero_or_pos m with rfl | hm
  · obtain rfl : k = 0 := hc.2.2.resolve_left (by decide)
    have hz : shortest 0 0 = 0 := by decide +kernel
    have hn : n = 0 := by
      rw [hz] at h
      exact (Nat.mul_eq_zero.mp h).resolve_right (Nat.ne_of_gt (Nat.pow_pos (by decide)))
    rw [ofDecimal, if_pos (.inl hn), ofParts_eq negative hc]
  · obtain ⟨hlow, hhigh⟩ := bounds_of_readsBack hc hm hr
    rw [ofDecimal_eq_ofUnits negative hl hlow hhigh, ofUnits_of_readsBack negative hc hr]

theorem splitSign_positional (places n : Nat) :
    Decimal.splitSign (positional places n) = (false, positional places n) :=
  Decimal.splitSign_append (Decimal.all_isDigit_toDigits _) Nat.toDigits_ne_nil _

theorem ofChars?_of_numeral? (negative : Bool) {cs : List Char} {n : Nat} {e : Int}
    (hs : Decimal.splitSign cs = (false, cs)) (hn : numeral? cs = some (n, e)) :
    ofChars? (if negative then '-' :: cs else cs) = some (ofDecimal negative n e) := by
  cases negative with
  | false => simp [ofChars?, hs, hn]
  | true => simp [ofChars?, Decimal.splitSign, hn]

/-- Every number is read back from its shortest text. -/
theorem ofChars?_text {x : Binary64} (hx : x ≠ .nan) : ofChars? x.text.toList = some x := by
  cases x with
  | nan => exact absurd rfl hx
  | infinite negative => cases negative <;> decide
  | finite negative m k hc =>
    obtain ⟨n, l, hn, hl, hworth⟩ := @exists_numeral?_positional places (by decide) (shortest m k)
    rw [text, textWith, String.toList_ofList,
      ofChars?_of_numeral? negative (splitSign_positional places _) hn,
      ofDecimal_shortest negative hc hl hworth]

theorem mul_pow_lt_mul_pow {n bound b : Nat} (h : n < bound) (hb : 0 < b) (p : Nat) :
    n * b ^ p < bound * b ^ p :=
  Nat.mul_lt_mul_of_pos_right h (Nat.pow_pos hb)

theorem pow_ten_div (n p : Nat) : n * 10 ^ p / 5 ^ p = n * 2 ^ p := by
  rw [show 10 = 2 * 5 from rfl, Nat.mul_pow, ← Nat.mul_assoc,
    Nat.mul_div_cancel _ (Nat.pow_pos (by decide))]

/-- A natural number of 64 bits is none of those beyond the largest binary number. -/
theorem exists_ofChars?_toDigits {n : Nat} (h : n < 2 ^ 64) :
    ∃ m k hc, ofChars? (Nat.toDigits 10 n) = some (.finite false m k hc) := by
  have hd := Decimal.all_isDigit_toDigits n
  have hs : Decimal.splitSign (Nat.toDigits 10 n) = (false, Nat.toDigits 10 n) := by
    simpa using Decimal.splitSign_append hd Nat.toDigits_ne_nil []
  have hv : Decimal.ofDigits (Nat.toDigits 10 n) = n := Nat.ofDigitChars_ten_toDigits
  have hread := ofChars?_of_numeral? false hs (numeral?_digits hd Nat.toDigits_ne_nil)
  rw [hv] at hread
  suffices hf : ∃ m k hc, ofDecimal false n 0 = .finite false m k hc by
    obtain ⟨m, k, hc, hf⟩ := hf
    exact ⟨m, k, hc, hread.trans (congrArg some hf)⟩
  rcases Nat.eq_zero_or_pos n with rfl | hn
  · exact ⟨0, 0, by decide, by decide⟩
  · have hlow : 10 ^ (places - 400) ≤ n * 10 ^ (places - 0) :=
      (Nat.pow_le_pow_right (by decide) (by omega)).trans (Nat.le_mul_of_pos_left _ hn)
    have hfar : 2 ^ 64 * 10 ^ (places - 0) < 10 ^ (places + 400) := by decide +kernel
    have hhigh := (mul_pow_lt_mul_pow h (by decide) (places - 0)).trans hfar
    have hu := ofDecimal_eq_ofUnits false (Nat.zero_le places) hlow hhigh
    have hlargest : 2 ^ 64 * 2 ^ places < 2 ^ 2097 := by decide +kernel
    have hq : n * 10 ^ (places - 0) / 5 ^ places < 2 ^ 2097 := by
      rw [Nat.sub_zero, pow_ten_div]
      exact (mul_pow_lt_mul_pow h (by decide) places).trans hlargest
    obtain ⟨m, k, hc, hf⟩ := exists_ofUnits_eq_finite false hq
    exact ⟨m, k, hc, hu.trans hf⟩

end Binary64
end KnittingPattern
