import Chip8.Memory
import Chip8.Number

/-!
# Square waves

A loop of unsigned eight-bit samples at 44100 a second, high for the first half of each period
and low for the second.  The loop holds whole periods, about a tenth of a second of them.
-/

namespace Chip8.SquareWave

inductive Error
  | arithmetic (e : ArithmeticError)
  /-- There is no room for so many samples. -/
  | memory (e : Memory.Error)
  deriving DecidableEq, Repr

/-- Samples in a second. -/
def rate : Float := 44100.0

/-- Seconds of sound in a loop, roughly. -/
def loopLength : Float := 0.1

/-- A position modulo a period of `period / unit`, with the sign of the period, compared with the
middle of the period. -/
def isHigh (period : Int) (unit position : Nat) : Bool :=
  match period with
  | .ofNat p => 2 * (position * unit % p) < p
  | .negSucc _ => 2 * ((position * unit : Nat) : Int).fmod period < period

def quotient (x : Float) : Except ArithmeticError (Int × Nat) :=
  match Binary64.parts x with
  | .notANumber => .error .notANumber
  | .infinite _ => .error .overflow
  | .finite negative m e =>
    let (n, d) := Binary64.scaled m 1 (-e)
    .ok (Binary64.signed negative n, d)

/-- How many samples a loop has, and the length of a period in samples. -/
def shape (frequency : Number) : Except ArithmeticError (Int × Float) := do
  let period ← frequency.under rate
  let hertz ← frequency.toFloat
  let periods := max 1 (← Binary64.roundEven (loopLength * hertz))
  let factor ← (Number.whole periods).toFloat
  return (max 2 (← Binary64.roundEven (period * factor)), period)

def samples (room : Memory.Room) (frequency : Number) : Except Error (Array UInt8) := do
  let (count, period) ← (shape frequency).mapError .arithmetic
  (Memory.checkSize room count).mapError .memory
  let (num, den) ← (quotient period).mapError .arithmetic
  return (Array.range count.toNat).map fun position =>
    if isHigh num den position then 0xFF else 0x00

end Chip8.SquareWave
