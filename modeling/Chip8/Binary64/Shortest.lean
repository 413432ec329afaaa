import Chip8.Binary64

/-!
# The fewest digits that read back

A positive finite number is written with the fewest significant decimal digits that round to it
again; of several such the nearest is taken, and of two equally near the even one.
-/

namespace Chip8.Binary64

/-- `digits * 10 ^ exponent`, a decimal. -/
structure Decimal where
  digits : Nat
  exponent : Int
  deriving DecidableEq, Repr

namespace Decimal

def quotient (d : Decimal) : Nat × Nat :=
  if 0 ≤ d.exponent then (d.digits * Nat.pow 10 d.exponent.toNat, 1)
  else (d.digits, Nat.pow 10 (-d.exponent).toNat)

def bits? (d : Decimal) : Option Nat := bitsOfQuotient? d.quotient.1 d.quotient.2

/-- The decimals next below and above `num / den` on the grid of multiples of `10 ^ exponent`,
the nearer first. -/
def neighbours (num den : Nat) (exponent : Int) : List Decimal :=
  let n := if 0 ≤ exponent then num else num * Nat.pow 10 (-exponent).toNat
  let d := if 0 ≤ exponent then den * Nat.pow 10 exponent.toNat else den
  let below : Decimal := ⟨n / d, exponent⟩
  let above : Decimal := ⟨n / d + 1, exponent⟩
  if roundQuotient n d = n / d then [below, above] else [above, below]

def trimZeros (fuel : Nat) (d : Decimal) : Decimal :=
  match fuel with
  | 0 => d
  | fuel + 1 =>
    if d.digits ≠ 0 ∧ d.digits % 10 = 0 then trimZeros fuel ⟨d.digits / 10, d.exponent + 1⟩ else d

end Decimal

/-- The number of decimal digits before the point of `num / den`; zero or less for a quotient
below one. -/
def magnitude (num den : Nat) : Int :=
  if den ≤ num then (Nat.toDigits 10 (num / den)).length
  else
    let places : Int := (Nat.toDigits 10 (den / num)).length
    if Nat.pow 10 (places - 1).toNat * num < den then 1 - places else 2 - places

/-- The decimal of a positive number given by its bits and its exact quotient. -/
def shortestOfQuotient (bits num den : Nat) : Decimal :=
  let size := magnitude num den
  let grids := (List.range 18).map fun (k : Nat) => size - (k : Int)
  let found? := grids.findSome? fun exponent =>
    (Decimal.neighbours num den exponent).find? fun d => d.bits? == some bits
  (found?.getD ⟨num / den, 0⟩).trimZeros 20

def shortest (bits significand : Nat) (exponent : Int) : Decimal :=
  let (num, den) := scaled significand 1 (-exponent)
  shortestOfQuotient bits num den

end Chip8.Binary64
