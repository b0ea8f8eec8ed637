import KnittingPattern.Decimal.Digits

/-! # Binary numbers of 64 bits

A finite number is a mantissa and a scale: `m * 2 ^ k` units of `2 ^ -1074`.  Every such number is a
whole multiple of `10 ^ -1074`, so its decimal texts are exact arithmetic on natural numbers:

* `Binary64.shortest` is the decimal with the fewest digits that reads back as the number, and of
  those the nearest;
* `Binary64.fixed` rounds to a number of decimal places, a half to the even neighbour;
* `Binary64.ofDecimal` reads a decimal as the nearest binary number, a half to the even mantissa. -/

namespace KnittingPattern

/-- The mantissa has 53 bits, unless the number is among the smallest. -/
def Binary64.Canonical (mantissa scale : Nat) : Prop :=
  mantissa < Nat.pow 2 53 ∧ scale ≤ 2045 ∧ (Nat.pow 2 52 ≤ mantissa ∨ scale = 0)

instance (m k : Nat) : Decidable (Binary64.Canonical m k) :=
  inferInstanceAs (Decidable (_ ∧ _ ∧ (_ ∨ _)))

inductive Binary64 where
  | nan
  | infinite (negative : Bool)
  | finite (negative : Bool) (mantissa scale : Nat) (canonical : Binary64.Canonical mantissa scale)
deriving DecidableEq

namespace Binary64

/-- How many decimal places write every finite number exactly. -/
def places : Nat := 1074

/-- The value of a mantissa and a scale, in units of `10 ^ -places`. -/
def units (m k : Nat) : Nat := m * Nat.pow 2 k * Nat.pow 5 places

/-- The quotient rounded to the nearest whole number, a half to the even one. -/
def nearestEven (n d : Nat) : Nat :=
  if 2 * (n % d) < d ∨ (2 * (n % d) = d ∧ n / d % 2 = 0) then n / d else n / d + 1

/-- The number with this mantissa and scale; beyond the largest number lies infinity. -/
def ofParts (negative : Bool) (m k : Nat) : Binary64 :=
  if h : Canonical m k then .finite negative m k h else .infinite negative

/-- The number nearest to `n / d`. -/
def ofRatio (negative : Bool) (n d : Nat) : Binary64 :=
  let k := (n * Nat.pow 2 places / d).log2 - 52
  let m := nearestEven (n * Nat.pow 2 places) (d * Nat.pow 2 k)
  if m = Nat.pow 2 53 then ofParts negative (Nat.pow 2 52) (k + 1) else ofParts negative m k

/-- The number nearest to `n * 10 ^ e`.  The two bounds keep far exponents from being computed: past
them the answer is infinity or zero. -/
def ofDecimal (negative : Bool) (n : Nat) (e : Int) : Binary64 :=
  if n = 0 ∨ Decimal.width n + e < -400 then ofParts negative 0 0
  else if Decimal.width n + e > 400 then .infinite negative
  else if 0 ≤ e then ofRatio negative (n * Nat.pow 10 e.toNat) 1
  else ofRatio negative n (Nat.pow 10 (-e).toNat)

/-- The exponent after a significand: nothing, or a mark, a sign and digits. -/
def exponent? : List Char → Option Int
  | [] => some 0
  | c :: cs =>
    if c = 'e' ∨ c = 'E' then
      let (negative, ds) := Decimal.splitSign cs
      (Decimal.natural? ds).map fun n => if negative then -(n : Int) else n
    else none

/-- Reads digits with a point and an exponent as a whole number and a power of ten. -/
def numeral? (cs : List Char) : Option (Nat × Int) :=
  let whole := cs.takeWhile Decimal.isDigit
  let rest := cs.dropWhile Decimal.isDigit
  let (fraction, rest) := match rest with
    | '.' :: r => (r.takeWhile Decimal.isDigit, r.dropWhile Decimal.isDigit)
    | r => ([], r)
  if whole = [] ∧ fraction = [] then none
  else (exponent? rest).map fun e => (Decimal.ofDigits (whole ++ fraction), e - fraction.length)

/-- Reads a number: a sign, then a numeral or one of three words in any case. -/
def ofChars? (cs : List Char) : Option Binary64 :=
  let (negative, ds) := Decimal.splitSign cs
  match numeral? ds with
  | some (n, e) => some (ofDecimal negative n e)
  | none =>
    let word := String.ofList (ds.map Char.toLower)
    if word = "inf" ∨ word = "infinity" then some (.infinite negative)
    else if word = "nan" then some .nan
    else none

/-- Whether a decimal of `x` units reads back as this number: it is nearer than the neighbours, and
a decimal half way to one reads back when the mantissa is even.  Below a power of two the neighbours
lie closer. -/
def readsBack (m k x : Nat) : Bool :=
  let v := units m k
  let gap := Nat.pow 2 k * Nat.pow 5 places
  let distance := 4 * if v ≤ x then x - v else v - x
  let reach := if x < v ∧ m = Nat.pow 2 52 ∧ k ≠ 0 then gap else 2 * gap
  if m % 2 = 0 then distance ≤ reach else distance < reach

/-- The nearer of the two multiples of `grid` around the number, of those that read back; the
greater one if both are as near. -/
def onGrid? (m k grid : Nat) : Option Nat :=
  let v := units m k
  let below := v / grid * grid
  let above := if v % grid = 0 then below else below + grid
  match readsBack m k below, readsBack m k above with
  | true, true => some (if above - v ≤ v - below then above else below)
  | true, false => some below
  | false, true => some above
  | false, false => none

/-- The first hit on the grids of `10 ^ p` units and finer. -/
def shortestFrom (m k : Nat) : Nat → Nat
  | 0 => units m k
  | p + 1 => (onGrid? m k (Nat.pow 10 (p + 1))).getD (shortestFrom m k p)

/-- The decimal with the fewest digits that reads back, in units. -/
def shortest (m k : Nat) : Nat := shortestFrom m k (Decimal.width (units m k) - 1)

/-- Writes `n` units of `10 ^ -places`: the point stands before the last `places` digits; zeros at
the end of the fraction are dropped, and the point with them. -/
def positional (places n : Nat) : List Char :=
  let fraction := (Decimal.padded places (n % Nat.pow 10 places)).reverse.dropWhile (· = '0')
  Nat.toDigits 10 (n / Nat.pow 10 places) ++ if fraction = [] then [] else '.' :: fraction.reverse

/-- Rounds to `digits` decimal places and writes them all. -/
def fixed (digits m k : Nat) : List Char :=
  let n := nearestEven (units m k) (Nat.pow 10 (places - digits))
  Nat.toDigits 10 (n / Nat.pow 10 digits) ++ '.' :: Decimal.padded digits (n % Nat.pow 10 digits)

/-- Writes a number, finite ones as `write` does. -/
def textWith (write : Nat → Nat → List Char) : Binary64 → String
  | nan => "NaN"
  | infinite negative => if negative then "-inf" else "inf"
  | finite negative m k _ => String.ofList (if negative then '-' :: write m k else write m k)

/-- The shortest text, never with an exponent. -/
def text : Binary64 → String := textWith fun m k => positional places (shortest m k)

/-- The text with two decimal places. -/
def text2 : Binary64 → String := textWith (fixed 2)

end Binary64
end KnittingPattern
