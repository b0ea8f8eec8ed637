import KnittingPattern.Decimal.Binary64
import Mathlib.Data.Nat.Log
import Mathlib.Tactic.Ring

/-! # Rounding to binary numbers

A decimal that lies within half a unit of the last place of a binary number is rounded to that
number, and below a power of two the half is of the smaller unit there.  That a decimal reads back
as a number says just that.  Main theorem: `Binary64.ofUnits_of_readsBack`. -/

namespace KnittingPattern

namespace Binary64

theorem nearestEven_eq {n d m : Nat} (hd : 0 < d) (hlow : 2 * (m * d) ≤ 2 * n + d)
    (hhigh : 2 * n ≤ 2 * (m * d) + d)
    (htie : 2 * (m * d) = 2 * n + d ∨ 2 * n = 2 * (m * d) + d → m % 2 = 0) :
    nearestEven n d = m := by
  have hn : n = n / d * d + n % d := by rw [Nat.mul_comm]; exact (Nat.div_add_mod n d).symm
  have hr : n % d < d := Nat.mod_lt n hd
  have hge : n / d ≤ m := by
    by_contra h
    have : (m + 1) * d ≤ n / d * d := Nat.mul_le_mul_right d (by omega)
    rw [Nat.add_mul] at this
    omega
  have hle : m ≤ n / d + 1 := by
    by_contra h
    have : (n / d + 2) * d ≤ m * d := Nat.mul_le_mul_right d (by omega)
    rw [Nat.add_mul] at this
    omega
  obtain rfl | hm : m = n / d ∨ m = n / d + 1 := by omega
  · rw [nearestEven, if_pos]
    omega
  · have hmd : m * d = n / d * d + d := by rw [hm]; ring
    rw [nearestEven, if_neg, hm]
    omega

/-- A common factor makes no difference. -/
theorem nearestEven_mul (n d : Nat) {c : Nat} (hc : 0 < c) :
    nearestEven (n * c) (d * c) = nearestEven n d := by
  have hlt : 2 * (n % d * c) < d * c ↔ 2 * (n % d) < d := by
    rw [← Nat.mul_assoc]; exact Nat.mul_lt_mul_right hc
  have heq : 2 * (n % d * c) = d * c ↔ 2 * (n % d) = d := by
    rw [← Nat.mul_assoc]; exact Nat.mul_left_inj (Nat.ne_of_gt hc)
  simp only [nearestEven, Nat.mul_mod_mul_right, Nat.mul_div_mul_right _ _ hc, hlt, heq]

/-- A quotient is rounded down or up. -/
theorem nearestEven_bounds (n d : Nat) : n / d ≤ nearestEven n d ∧ nearestEven n d ≤ n / d + 1 := by
  unfold nearestEven
  split <;> omega

/-- The number nearest to `n` units of `10 ^ -places`. -/
def ofUnits (negative : Bool) (n : Nat) : Binary64 :=
  let k := (n / 5 ^ places).log2 - 52
  let m := nearestEven n (2 ^ k * 5 ^ places)
  if m = 2 ^ 53 then ofParts negative (2 ^ 52) (k + 1) else ofParts negative m k

/-- A quotient by a power of ten is a number of units. -/
theorem ofRatio_eq_ofUnits (negative : Bool) (n : Nat) {l : Nat} (hl : l ≤ places) :
    ofRatio negative n (10 ^ l) = ofUnits negative (n * 10 ^ (places - l)) := by
  have hten : 10 ^ l * 10 ^ (places - l) = 5 ^ places * 2 ^ places := by
    rw [← Nat.pow_add, ← Nat.mul_pow, Nat.add_sub_cancel' hl]
  have hc : 0 < 10 ^ (places - l) := Nat.pow_pos (by decide)
  have h2 : 0 < 2 ^ places := Nat.pow_pos (by decide)
  have hq : n * 2 ^ places / 10 ^ l = n * 10 ^ (places - l) / 5 ^ places := by
    rw [← Nat.mul_div_mul_right _ (10 ^ l) hc, hten, ← Nat.mul_div_mul_right _ (5 ^ places) h2,
      Nat.mul_right_comm]
  have hm (k : Nat) : nearestEven (n * 2 ^ places) (10 ^ l * 2 ^ k) =
      nearestEven (n * 10 ^ (places - l)) (2 ^ k * 5 ^ places) := by
    have hd : 10 ^ l * 2 ^ k * 10 ^ (places - l) = 2 ^ k * 5 ^ places * 2 ^ places := by
      rw [Nat.mul_right_comm, hten, Nat.mul_comm, ← Nat.mul_assoc]
    rw [← nearestEven_mul _ (10 ^ l * 2 ^ k) hc, hd, Nat.mul_right_comm,
      nearestEven_mul _ _ h2]
  simp only [ofRatio, ofUnits, Nat.pow_eq, hq, hm]

/-- The scale at which a number has a mantissa of 53 bits, or the least one. -/
theorem log2_sub_eq {q k : Nat} (hlt : q < 2 ^ (52 + k + 1)) (hge : k = 0 ∨ 2 ^ (52 + k) ≤ q) :
    q.log2 - 52 = k := by
  by_cases hq : q = 0
  · subst hq
    rcases hge with rfl | hge
    · rfl
    · exact absurd (Nat.le_zero.mp hge) (Nat.ne_of_gt (Nat.pow_pos (by decide)))
  · have hle : q.log2 < 52 + k + 1 := (Nat.log2_lt hq).mpr hlt
    rcases hge with rfl | hge
    · omega
    · have := (Nat.le_log2 hq).mpr hge
      omega

theorem ofParts_eq (negative : Bool) {m k : Nat} (h : Canonical m k) :
    ofParts negative m k = .finite negative m k h :=
  dif_pos h

/-- A number of units is rounded at its scale. -/
theorem ofUnits_eq (negative : Bool) {n k : Nat} (hlt : n / 5 ^ places < 2 ^ (52 + k + 1))
    (hge : k = 0 ∨ 2 ^ (52 + k) ≤ n / 5 ^ places) :
    ofUnits negative n =
      if nearestEven n (2 ^ k * 5 ^ places) = 2 ^ 53 then ofParts negative (2 ^ 52) (k + 1)
      else ofParts negative (nearestEven n (2 ^ k * 5 ^ places)) k := by
  simp only [ofUnits, log2_sub_eq hlt hge]

/-- Every number has a scale. -/
theorem exists_scale (q : Nat) : ∃ k, k ≤ q.log2 - 52 ∧ q < 2 ^ (52 + k + 1) ∧
    (k = 0 ∨ 2 ^ (52 + k) ≤ q) := by
  refine ⟨q.log2 - 52, Nat.le_refl _, ?_, ?_⟩
  · exact Nat.lt_of_lt_of_le Nat.lt_log2_self (Nat.pow_le_pow_right (by decide) (by omega))
  · by_cases h : q.log2 - 52 = 0
    · exact .inl h
    · have hq : q ≠ 0 := by
        rintro rfl
        exact h rfl
      have he : 52 + (q.log2 - 52) = q.log2 := by omega
      rw [he]
      exact .inr (Nat.log2_self_le hq)

/-- A number of units that is not beyond the largest number is a number. -/
theorem exists_ofUnits_eq_finite (negative : Bool) {n : Nat} (h : n / 5 ^ places < 2 ^ 2097) :
    ∃ m k hc, ofUnits negative n = .finite negative m k hc := by
  obtain ⟨k, hk, hlt, hge⟩ := exists_scale (n / 5 ^ places)
  have hk : k ≤ 2044 := by
    by_cases hq : n / 5 ^ places = 0
    · rw [hq] at hk
      exact Nat.le_trans hk (by decide)
    · have := (Nat.log2_lt hq).mpr h
      omega
  rw [ofUnits_eq negative hlt hge]
  obtain ⟨hlow, hhigh⟩ := nearestEven_bounds n (2 ^ k * 5 ^ places)
  have hd : n / (2 ^ k * 5 ^ places) = n / 5 ^ places / 2 ^ k := by
    rw [Nat.mul_comm, Nat.div_div_eq_div_mul]
  have hm : n / 5 ^ places / 2 ^ k < 2 ^ 53 := by
    rw [Nat.div_lt_iff_lt_mul (Nat.pow_pos (by decide)), ← Nat.pow_add]
    exact Nat.lt_of_lt_of_eq hlt (by congr 1; omega)
  split
  · have hc : Canonical (2 ^ 52) (k + 1) := ⟨by decide, by omega, .inl (Nat.le_refl _)⟩
    exact ⟨_, _, hc, ofParts_eq negative hc⟩
  · rename_i hne
    have hlt53 : nearestEven n (2 ^ k * 5 ^ places) < 2 ^ 53 := by omega
    have hnormal : 2 ^ 52 ≤ nearestEven n (2 ^ k * 5 ^ places) ∨ k = 0 := by
      rcases hge with rfl | hge
      · exact .inr rfl
      · have : 2 ^ 52 ≤ n / 5 ^ places / 2 ^ k := by
          rw [Nat.le_div_iff_mul_le (Nat.pow_pos (by decide)), ← Nat.pow_add]
          exact hge
        exact .inl (by omega)
    have hc : Canonical (nearestEven n (2 ^ k * 5 ^ places)) k := ⟨hlt53, by omega, hnormal⟩
    exact ⟨_, _, hc, ofParts_eq negative hc⟩

/-- A number is at most half a unit of the last place, `gap`, away from `m` of them, and less if `m`
is odd; below a power of two it is at most a quarter away. -/
structure Near (m gap n : Nat) (power : Prop) : Prop where
  below : 2 * n ≤ 2 * (m * gap) + gap
  above : 2 * (m * gap) ≤ 2 * n + gap
  tie : 2 * (m * gap) = 2 * n + gap ∨ 2 * n = 2 * (m * gap) + gap → m % 2 = 0
  quarter : power → 4 * (m * gap) ≤ 4 * n + gap

/-- A decimal that reads back is near. -/
theorem near_of_readsBack {m k n : Nat} (h : readsBack m k n) :
    Near m (2 ^ k * 5 ^ places) n (m = 2 ^ 52 ∧ k ≠ 0) := by
  have hv : units m k = m * (2 ^ k * 5 ^ places) := by
    rw [units]
    simp only [Nat.pow_eq, Nat.mul_assoc]
  rw [readsBack] at h
  simp only [hv, Nat.pow_eq] at h
  generalize 2 ^ k * 5 ^ places = gap at *
  by_cases hp : m = 2 ^ 52 ∧ k ≠ 0
  · have hm : m % 2 = 0 := by omega
    simp only [if_pos hm, and_iff_left hp, decide_eq_true_eq] at h
    constructor <;> (split at h <;> split at h <;> omega)
  · by_cases hm : m % 2 = 0
    · simp only [if_pos hm, hp, and_false, if_false, decide_eq_true_eq] at h
      refine ⟨?_, ?_, fun _ => hm, fun hp' => absurd hp' hp⟩ <;> (split at h <;> omega)
    · simp only [if_neg hm, hp, and_false, if_false, decide_eq_true_eq] at h
      refine ⟨?_, ?_, ?_, fun hp' => absurd hp' hp⟩ <;> (split at h <;> omega)

theorem Near.nearestEven_eq {m gap n : Nat} {power : Prop} (h : Near m gap n power)
    (hg : 0 < gap) : nearestEven n gap = m :=
  Binary64.nearestEven_eq hg h.above h.below h.tie

theorem Near.bounds {m gap n high : Nat} {power : Prop} (h : Near m gap n power) (hm : 0 < m)
    (hg : 0 < gap) (hhigh : m < high) : gap ≤ 2 * n ∧ n < high * gap := by
  have h1 : 1 * gap ≤ m * gap := Nat.mul_le_mul_right gap hm
  have h2 : (m + 1) * gap ≤ high * gap := Nat.mul_le_mul_right gap hhigh
  have ha := h.above
  have hb := h.below
  rw [Nat.add_mul] at h2
  omega

/-- Just below a power of two, a number that is near to it is rounded to it at the scale below. -/
theorem Near.nearestEven_half {m gap n : Nat} {power : Prop} (h : Near m (2 * gap) n power)
    (hp : power) (hg : 0 < gap) (hn : n < 2 * m * gap) : nearestEven n gap = 2 * m := by
  have hq := h.quarter hp
  have he : m * (2 * gap) = 2 * m * gap := by ring
  exact Binary64.nearestEven_eq hg (by omega) (by omega) fun _ => Nat.mul_mod_right 2 m

/-- A decimal that reads back as a number is rounded to it. -/
theorem ofUnits_of_readsBack (negative : Bool) {m k n : Nat} (hc : Canonical m k)
    (h : readsBack m k n) : ofUnits negative n = .finite negative m k hc := by
  have hn := near_of_readsBack h
  have hF : 0 < 5 ^ places := Nat.pow_pos (by decide)
  have hg (i : Nat) : 0 < 2 ^ i * 5 ^ places := Nat.mul_pos (Nat.pow_pos (by decide)) hF
  have hm : m < 2 ^ 53 := hc.1
  have hnormal : 2 ^ 52 ≤ m ∨ k = 0 := hc.2.2
  have hq (i : Nat) : n / 5 ^ places < 2 ^ (i + k) ↔ n < 2 ^ i * (2 ^ k * 5 ^ places) := by
    rw [Nat.div_lt_iff_lt_mul hF, Nat.pow_add, Nat.mul_assoc]
  have hlt : n / 5 ^ places < 2 ^ (53 + k) := by
    have hle : (m + 1) * (2 ^ k * 5 ^ places) ≤ 2 ^ 53 * (2 ^ k * 5 ^ places) :=
      Nat.mul_le_mul_right _ hm
    have hb := hn.below
    have hpos := hg k
    rw [Nat.add_mul] at hle
    rw [hq]
    omega
  by_cases hge : k = 0 ∨ 2 ^ (52 + k) ≤ n / 5 ^ places
  · rw [ofUnits_eq negative (by rwa [Nat.add_right_comm]) hge, hn.nearestEven_eq (hg k),
      if_neg (Nat.ne_of_lt hm), ofParts_eq negative hc]
  · obtain ⟨hk, hpow⟩ := not_or.mp hge
    rw [Nat.not_le, hq] at hpow
    have hm52 : m = 2 ^ 52 := by
      by_contra hne
      have hle : (2 ^ 52 + 1) * (2 ^ k * 5 ^ places) ≤ m * (2 ^ k * 5 ^ places) :=
        Nat.mul_le_mul_right _ (by omega)
      have ha := hn.above
      rw [Nat.add_mul] at hle
      omega
    subst hm52
    obtain ⟨j, rfl⟩ := Nat.exists_eq_add_one.mpr (Nat.pos_of_ne_zero hk)
    have hgap : 2 ^ (j + 1) * 5 ^ places = 2 * (2 ^ j * 5 ^ places) := by ring
    rw [hgap] at hn hpow
    have hp : 2 ^ 52 = 2 ^ 52 ∧ j + 1 ≠ 0 := ⟨rfl, hk⟩
    have hquarter := hn.quarter hp
    have hlow : 2 ^ (52 + j) ≤ n / 5 ^ places := by
      rw [Nat.le_div_iff_mul_le hF, Nat.pow_add, Nat.mul_assoc]
      omega
    rw [ofUnits_eq negative (by rw [Nat.add_assoc, hq, hgap]; exact hpow) (.inr hlow),
      hn.nearestEven_half hp (hg j) (by omega), if_pos (by decide), ofParts_eq negative hc]

end Binary64
end KnittingPattern
