/-! # Decimal digits

Rows of decimal digits and the numbers they write, with the readers for whole numbers of 64 bits.
A sign may stand before the digits, nothing else may stand around them. -/

namespace KnittingPattern.Decimal

def isDigit (c : Char) : Bool := '0' ≤ c && c ≤ '9'

/-- The number a digit writes. -/
def digit (c : Char) : Nat := c.toNat - 48

/-- The number a row of digits writes. -/
def ofDigits (ds : List Char) : Nat := ds.foldl (fun n c => 10 * n + digit c) 0

/-- How many digits write a number. -/
def width (n : Nat) : Nat := (Nat.toDigits 10 n).length

/-- Writes `n` in at least `places` digits. -/
def padded (places n : Nat) : List Char :=
  List.replicate (places - width n) '0' ++ Nat.toDigits 10 n

/-- Reads a row of digits that is not empty. -/
def natural? (cs : List Char) : Option Nat :=
  if cs ≠ [] ∧ cs.all isDigit then some (ofDigits cs) else none

/-- Takes the sign off a number; `true` is a minus. -/
def splitSign : List Char → Bool × List Char
  | '-' :: cs => (true, cs)
  | '+' :: cs => (false, cs)
  | cs => (false, cs)

/-- Reads a signed whole number of 64 bits. -/
def int64? (cs : List Char) : Option Int := do
  let (negative, ds) := splitSign cs
  let n ← natural? ds
  if negative then if n ≤ Nat.pow 2 63 then some (-(n : Int)) else none
  else if n < Nat.pow 2 63 then some n else none

/-- Reads an unsigned whole number of 64 bits; a plus may stand before it. -/
def nat64? (cs : List Char) : Option Nat := do
  let n ← natural? (match cs with | '+' :: ds => ds | ds => ds)
  if n < Nat.pow 2 64 then some n else none

end KnittingPattern.Decimal
