/-!
# Exact arithmetic on 64-bit floating point numbers

A finite number is a sign, a significand and a power of two.  This module takes numbers apart,
rounds quotients of integers to the nearest number, ties to the even significand, and rounds
numbers to integers.
-/

namespace Chip8

inductive ArithmeticError
  /-- The result is too large. -/
  | overflow
  /-- There is no number to work on. -/
  | notANumber
  | divisionByZero
  deriving DecidableEq, Repr

namespace Binary64

/-- A floating point number taken apart: a finite one is `significand * 2 ^ exponent`. -/
inductive Parts
  | notANumber
  | infinite (negative : Bool)
  | finite (negative : Bool) (significand : Nat) (exponent : Int)
  deriving DecidableEq, Repr

def partsOfBits (bits : Nat) : Parts :=
  let negative := bits / Nat.pow 2 63 % 2 == 1
  let biased : Nat := bits / Nat.pow 2 52 % 2048
  let fraction := bits % Nat.pow 2 52
  if biased = 2047 then
    if fraction = 0 then .infinite negative else .notANumber
  else if biased = 0 then .finite negative fraction (-1074)
  else .finite negative (fraction + Nat.pow 2 52) ((biased : Int) - 1075)

def parts (x : Float) : Parts := partsOfBits x.toBits.toNat

/-- The quotient of two natural numbers rounded to the nearest, a half to the even neighbour. -/
def roundQuotient (num den : Nat) : Nat :=
  let q := num / den
  let r := num % den
  if 2 * r < den ∨ (2 * r = den ∧ q % 2 = 0) then q else q + 1

/-- `num / (den * 2 ^ exponent)` as a quotient of natural numbers. -/
def scaled (num den : Nat) (exponent : Int) : Nat × Nat :=
  if 0 ≤ exponent then (num, den * Nat.pow 2 exponent.toNat)
  else (num * Nat.pow 2 (-exponent).toNat, den)

/-- The exponent at which the significand of `num / den` has 53 bits, but never one below that of
the smallest numbers. -/
def exponentOf (num den : Nat) : Int :=
  let guess : Int := (Nat.log2 num : Int) - Nat.log2 den - 52
  let (n, d) := scaled num den guess
  max (if n / d < Nat.pow 2 52 then guess - 1 else guess) (-1074)

/-- The bits of the number nearest to `num / den`, unless that is beyond the largest one. -/
def bitsOfQuotient? (num den : Nat) : Option Nat :=
  if num = 0 then some 0
  else
    let exponent := exponentOf num den
    let (n, d) := scaled num den exponent
    let bits := (exponent + 1074).toNat * Nat.pow 2 52 + roundQuotient n d
    if bits < 2047 * Nat.pow 2 52 then some bits else none

def ofQuotient? (negative : Bool) (num den : Nat) : Option Float :=
  (bitsOfQuotient? num den).map fun bits =>
    Float.ofBits (UInt64.ofNat (if negative then bits + Nat.pow 2 63 else bits))

def ofInt? (n : Int) : Option Float := ofQuotient? (n < 0) n.natAbs 1

def ofRatio (num den : Int) : Except ArithmeticError Float :=
  if den = 0 then .error .divisionByZero
  else
    match ofQuotient? (decide (num < 0) != decide (den < 0)) num.natAbs den.natAbs with
    | some x => .ok x
    | none => .error .overflow

def signed (negative : Bool) (n : Nat) : Int := if negative then -n else n

def roundEven (x : Float) : Except ArithmeticError Int :=
  match parts x with
  | .notANumber => .error .notANumber
  | .infinite _ => .error .overflow
  | .finite negative m e =>
    let (n, d) := scaled m 1 (-e)
    .ok (signed negative (roundQuotient n d))

def truncate (x : Float) : Except ArithmeticError Int :=
  match parts x with
  | .notANumber => .error .notANumber
  | .infinite _ => .error .overflow
  | .finite negative m e =>
    let (n, d) := scaled m 1 (-e)
    .ok (signed negative (n / d))

/-- Half of a number, rounded down to an integer. -/
def halve (x : Float) : Float :=
  match parts x with
  | .notANumber => x
  | .infinite _ => 0.0 / 0.0
  | .finite negative m e =>
    if m = 0 then x
    else
      let (n, d) := scaled m 1 (-e)
      (ofInt? ((signed negative n).fdiv (2 * d))).getD x

/-- How a number compares with an integer, without rounding either of them. -/
def compareInt? (x : Float) (n : Int) : Option Ordering :=
  match parts x with
  | .notANumber => none
  | .infinite negative => some (if negative then .lt else .gt)
  | .finite negative m e =>
    let (num, den) := scaled m 1 (-e)
    some (compare (signed negative num) (n * den))

end Binary64

end Chip8
