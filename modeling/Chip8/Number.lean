import Chip8.Binary64

/-!
# Numbers given by the host

A rate, a pitch or a time is an integer or a floating point number, and keeps the kind it was
given in.  Integers are reckoned with exactly as long as they are among themselves; next to a
floating point number an integer is rounded to one first.  Comparisons never round.
-/

namespace Chip8

inductive Number
  | whole (n : Int)
  | real (x : Float)

namespace Number

def toFloat : Number → Except ArithmeticError Float
  | .real x => .ok x
  | .whole n =>
    match Binary64.ofInt? n with
    | some x => .ok x
    | none => .error .overflow

/-- The nearest floating point number, and an infinite one for an integer beyond all of them. -/
def nearest : Number → Float
  | .real x => x
  | .whole n => (Binary64.ofInt? n).getD (if n < 0 then -1.0 / 0.0 else 1.0 / 0.0)

def whole? : Number → Option Int
  | .whole n => some n
  | .real x =>
    match Binary64.truncate x with
    | .error _ => none
    | .ok n => if Binary64.compareInt? x n = some .eq then some n else none

/-- Reckons with two integers as such, and with anything else as floating point numbers. -/
def combine (integers : Int → Int → Int) (reals : Float → Float → Float) :
    Number → Number → Number
  | .whole m, .whole n => .whole (integers m n)
  | x, y => .real (reals x.nearest y.nearest)

instance : Add Number := ⟨combine (· + ·) (· + ·)⟩

instance : Sub Number := ⟨combine (· - ·) (· - ·)⟩

instance : Mul Number := ⟨combine (· * ·) (· * ·)⟩

def equals : Number → Number → Bool
  | .whole m, .whole n => m == n
  | .real x, .real y => x == y
  | .whole n, .real x => Binary64.compareInt? x n == some .eq
  | .real x, .whole n => Binary64.compareInt? x n == some .eq

def less : Number → Number → Bool
  | .whole m, .whole n => m < n
  | .real x, .real y => x < y
  | .whole n, .real x => Binary64.compareInt? x n == some .gt
  | .real x, .whole n => Binary64.compareInt? x n == some .lt

def halve : Number → Number
  | .whole n => .whole (n.fdiv 2)
  | .real x => .real (Binary64.halve x)

def nonpositive (n : Number) : Bool := n.less (.whole 0) || n.equals (.whole 0)

def under (dividend : Float) (n : Number) : Except ArithmeticError Float := do
  let x ← n.toFloat
  if x == 0.0 then throw .divisionByZero
  return dividend / x

end Number

end Chip8
