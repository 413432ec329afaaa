import Chip8.Number

/-!
# Clocks

A clock keeps three schedules: instructions at the chosen rate or as fast as possible, timer
ticks at 60 hertz, and refreshes of the display at 60 hertz.  Ticks that were missed are all made
up for.  Missed instructions are made up for only while the clock is a tenth of a second behind.

The clock is told the time and never reads it, so that it can be driven by any sequence of
readings.
-/

namespace Chip8

/-- Times and spans in the arithmetic of the host's clock. -/
class TimeLine (τ : Type) where
  add : τ → τ → τ
  sub : τ → τ → τ
  le : τ → τ → Bool
  lt : τ → τ → Bool
  /-- Refuses a time that cannot be reckoned with. -/
  check : τ → Except ArithmeticError Unit
  /-- Between two ticks of the timers. -/
  tickSpan : τ
  /-- Between two refreshes of the display. -/
  frameSpan : τ
  /-- How late an instruction may be and still be made up for. -/
  lagLimit : τ
  second : τ
  /-- The whole second that a time lies in. -/
  wholeSecond : τ → Except ArithmeticError τ
  /-- A number of ticks that surely lead past a time, counted from the next tick. -/
  patience : (now next : τ) → Nat

namespace TimeLine

/-- Half as many ticks again as the span between two times has, and some more. -/
def ticksBetween (now next : Number) : Nat :=
  match Binary64.truncate ((now - next).nearest * 90.0) with
  | .ok n => n.toNat + 16
  | .error _ => 0

def secondOf : Number → Except ArithmeticError Number
  | .real x => (Binary64.truncate x).map .whole
  | .whole n => return .real (← (Number.whole n).toFloat)

instance : TimeLine Number where
  add x y := x + y
  sub x y := x - y
  le x y := x.less y || x.equals y
  lt := Number.less
  check n := n.toFloat.map fun _ => ()
  tickSpan := .real (1.0 / 60.0)
  frameSpan := .real (1.0 / 60.0)
  lagLimit := .real 0.1
  second := .real 1.0
  wholeSecond := secondOf
  patience := ticksBetween

end TimeLine

structure Clock (τ : Type) where
  /-- Between two instructions; nothing if they run as fast as possible. -/
  interval : Option τ
  /-- Whether the buzzer was last turned on. -/
  buzzing : Bool
  nextCycle : τ
  nextTick : τ
  nextFrame : τ
  nextReport : τ
  /-- The frames since the last report. -/
  frames : Nat
  /-- The instructions since the last report. -/
  cycles : Nat

/-- What a clock drives: a machine with its timers, and the plugins around it. -/
structure Rig (ε σ : Type) where
  tick : EStateM ε σ Unit
  cycle : EStateM ε σ Unit
  /-- Says whether the sound timer runs. -/
  sounding : EStateM ε σ Bool
  buzz : Bool → EStateM ε σ Unit
  /-- Takes in what the host has for the keypad; says whether to quit. -/
  poll : EStateM ε σ Bool
  refresh : EStateM ε σ Unit
  report : (frames cycles : Nat) → EStateM ε σ Unit

structure Driven (τ σ : Type) where
  clock : Clock τ
  rig : σ

namespace Clock

inductive Stop (ε : Type)
  | failed (e : ε)
  /-- A time cannot be reckoned with. -/
  | badTime (e : ArithmeticError)
  /-- The ticks to make up for never come to an end. -/
  | stalled
  deriving DecidableEq, Repr

/-- Instructions a second, if no speed is asked for. -/
def standardSpeed : Number := .whole 700

/-- The time between two instructions at a speed; none at a speed of zero or less. -/
def intervalOf (speed : Number) : Except ArithmeticError (Option Float) :=
  if speed.nonpositive then .ok none else (speed.under 1.0).map some

/-- The work of a clock: it keeps what it did even when it stops. -/
abbrev Drive (τ σ ε α : Type) := EStateM (Stop ε) (Driven τ σ) α

variable {τ σ ε α : Type} [TimeLine τ]

open TimeLine

def new (interval : Option τ) (zero : τ) : Clock τ where
  interval
  buzzing := false
  nextCycle := zero
  nextTick := add zero tickSpan
  nextFrame := zero
  nextReport := add zero second
  frames := 0
  cycles := 0

/-- Goes on only with a time that can be reckoned with. -/
def checked (time : τ) : EStateM ArithmeticError (Clock τ) Unit :=
  match check time with
  | .ok () => pure ()
  | .error e => throw e

def start (now : τ) : EStateM ArithmeticError (Clock τ) Unit := do
  modify ({ · with nextCycle := now })
  checked now
  modify fun c => { new c.interval now with buzzing := c.buzzing }

def due (c : Clock τ) (now : τ) : Bool :=
  match c.interval with
  | none => true
  | some _ => le c.nextCycle now

/-- Plans the instruction after the one that was run; a clock too far behind starts afresh. -/
def advance (now : τ) : EStateM ArithmeticError (Clock τ) Unit := do
  if let some interval := (← get).interval then
    checked (← get).nextCycle
    modify fun c => { c with nextCycle := add c.nextCycle interval }
    checked now
    if lt lagLimit (sub now (← get).nextCycle) then modify ({ · with nextCycle := now })
  modify fun c => { c with cycles := c.cycles + 1 }

def earlier (a b : τ) : τ := if lt b a then b else a

def nextJob (c : Clock τ) : τ := earlier (earlier c.nextCycle c.nextTick) c.nextFrame

def onRig (act : EStateM ε σ α) : Drive τ σ ε α := fun d =>
  match act d.rig with
  | .ok a rig => .ok a { d with rig }
  | .error e rig => .error (.failed e) { d with rig }

def onClock (act : EStateM ArithmeticError (Clock τ) α) : Drive τ σ ε α := fun d =>
  match act d.clock with
  | .ok a clock => .ok a { d with clock }
  | .error e clock => .error (.badTime e) { d with clock }

/-- Ticks until the next tick lies after `now`; stalls if `fuel` ticks do not lead there. -/
def tickUntil (rig : Rig ε σ) (now : τ) : (fuel : Nat) → Drive τ σ ε Unit
  | 0 => do
    if le (← get).clock.nextTick now then throw .stalled
  | fuel + 1 => do
    if le (← get).clock.nextTick now then
      onRig rig.tick
      onClock (modify fun c => { c with nextTick := add c.nextTick tickSpan })
      tickUntil rig now fuel

def catchUp (rig : Rig ε σ) (now : τ) : Drive τ σ ε Unit := do
  tickUntil rig now (patience now (← get).clock.nextTick)

def runDue (rig : Rig ε σ) (now : τ) : Drive τ σ ε Bool := do
  if due (← get).clock now then
    onRig rig.cycle
    onClock (advance now)
    return true
  else return false

def setBuzzer (rig : Rig ε σ) (on : Bool) : Drive τ σ ε Unit := do
  onRig (rig.buzz on)
  onClock (modify ({ · with buzzing := on }))

/-- Has the buzzer follow the sound timer, and tells the speaker only of changes. -/
def updateBuzzer (rig : Rig ε σ) : Drive τ σ ε Unit := do
  let on ← onRig rig.sounding
  if on ≠ (← get).clock.buzzing then setBuzzer rig on

/-- The work for one moment; says whether an instruction was run. -/
def step (rig : Rig ε σ) (now : τ) : Drive τ σ ε Bool := do
  catchUp rig now
  let ran ← runDue rig now
  updateBuzzer rig
  return ran

end Clock

end Chip8
