import KnittingPattern.Decimal.Digits
import KnittingPattern.State.Unrolling

/-! # Numbers read back

A whole number that is written in digits is the number that its digits are read as, if it fits into
64 bits. -/

namespace KnittingPattern

namespace Decimal

theorem isDigit_of_mem_toDigits {n : Nat} {c : Char} (h : c ∈ Nat.toDigits 10 n) : isDigit c := by
  have hc := Nat.isDigit_of_mem_toDigits (by decide) (by decide) h
  simpa [isDigit, Char.isDigit, Char.le_def] using hc

theorem all_isDigit_toDigits (n : Nat) : (Nat.toDigits 10 n).all isDigit :=
  List.all_eq_true.mpr fun _ h => isDigit_of_mem_toDigits h

/-- Digits up to something else. -/
theorem takeWhile_isDigit {ds rest : List Char} (hd : ds.all isDigit)
    (hr : ∀ c ∈ rest.head?, isDigit c = false) : (ds ++ rest).takeWhile isDigit = ds := by
  rw [List.takeWhile_append_of_pos (by simpa using hd)]
  cases rest with
  | nil => simp
  | cons c rest => simp [hr c rfl]

theorem dropWhile_isDigit {ds rest : List Char} (hd : ds.all isDigit)
    (hr : ∀ c ∈ rest.head?, isDigit c = false) : (ds ++ rest).dropWhile isDigit = rest := by
  rw [List.dropWhile_append_of_pos (by simpa using hd)]
  cases rest with
  | nil => rfl
  | cons c rest => simp [hr c rfl]

theorem takeWhile_isDigit_self {ds : List Char} (hd : ds.all isDigit) :
    ds.takeWhile isDigit = ds := by
  have h := @takeWhile_isDigit ds [] hd (by simp)
  rwa [List.append_nil] at h

theorem dropWhile_isDigit_self {ds : List Char} (hd : ds.all isDigit) :
    ds.dropWhile isDigit = [] := by
  have h := @dropWhile_isDigit ds [] hd (by simp)
  rwa [List.append_nil] at h

theorem natural?_toDigits (n : Nat) : natural? (Nat.toDigits 10 n) = some n := by
  have hn : ofDigits (Nat.toDigits 10 n) = n := Nat.ofDigitChars_ten_toDigits
  simp only [natural?, all_isDigit_toDigits, Nat.toDigits_ne_nil, ne_eq, not_false_eq_true,
    and_self, if_true, hn]

/-- What begins with a digit begins with no sign. -/
theorem splitSign_append {ds : List Char} (h : ds.all isDigit) (hne : ds ≠ []) (cs : List Char) :
    splitSign (ds ++ cs) = (false, ds ++ cs) := by
  cases ds with
  | nil => exact absurd rfl hne
  | cons d ds =>
    rw [List.cons_append]
    unfold splitSign
    split
    · simp_all [isDigit]
    · simp_all [isDigit]
    · rfl

theorem nat64?_of_isDigit {cs : List Char} (h : cs.all isDigit) :
    nat64? cs = (natural? cs).bind fun n => if n < Nat.pow 2 64 then some n else none := by
  unfold nat64?
  split
  · simp [isDigit] at h
  · rfl

theorem nat64?_toDigits {n : Nat} (h : n < Nat.pow 2 64) : nat64? (Nat.toDigits 10 n) = some n := by
  rw [nat64?_of_isDigit (all_isDigit_toDigits n), natural?_toDigits, Option.bind_some, if_pos h]

theorem int64?_toString {n : Int} (hlow : -(Nat.pow 2 63 : Nat) ≤ n)
    (hhigh : n < (Nat.pow 2 63 : Nat)) : int64? (toString n).toList = some n := by
  cases n with
  | ofNat n =>
    have hs : (toString (Int.ofNat n)).toList = Nat.toDigits 10 n := by
      simp [toString, Int.repr]
    have hn : n < Nat.pow 2 63 := Int.ofNat_lt.mp hhigh
    have hsign : splitSign (Nat.toDigits 10 n) = (false, Nat.toDigits 10 n) := by
      simpa using splitSign_append (all_isDigit_toDigits n) Nat.toDigits_ne_nil []
    simp only [int64?, hs, hsign, natural?_toDigits, Option.bind_eq_bind, Option.bind_some,
      if_pos hn]
    rfl
  | negSucc n =>
    have hs : (toString (Int.negSucc n)).toList = '-' :: Nat.toDigits 10 (n + 1) := by
      simp [toString, Int.repr]
    have hn : n + 1 ≤ Nat.pow 2 63 := by omega
    simp only [int64?, hs, splitSign, natural?_toDigits, Option.bind_eq_bind, Option.bind_some,
      if_pos hn]
    rfl

end Decimal

/-- A count that is written is read. -/
theorem repeatCount?_toString {n : Nat} (h : 1 ≤ n) (hn : n < Nat.pow 2 64) :
    repeatCount? [toString n] = some n := by
  simp only [repeatCount?, Nat.toString_eq_repr, Nat.toList_repr, Decimal.nat64?_toDigits hn]
  simp [h]

end KnittingPattern
