import Chip8.Clock

/-!
# Runs of a clock

A run takes one reading of the host's clock after the other.  The first starts the schedules.
Then come passes: each reports the rates if a second is over, polls and refreshes if a frame is
due, and does the work for the moment.  Between passes the clock waits until the next job is due,
unless instructions run as fast as possible.  Once a run has started, the buzzer is off after it
however it ends.
-/

namespace Chip8.Clock

variable {τ σ ε : Type} [TimeLine τ]

open TimeLine

/-- What the next reading of the host's clock is for. -/
inductive Phase (τ : Type)
  | starting
  | passing
  | waiting (time : τ)
  deriving DecidableEq, Repr

inductive Ending (ε : Type)
  | quit
  /-- The host's clock gave no further reading. -/
  | unread
  | stopped (s : Stop ε)
  deriving DecidableEq, Repr

/-- A run that is over: how it ended, what it left, and the readings that it did not take. -/
structure Finished (τ σ ε : Type) where
  ending : Ending ε
  state : Driven τ σ
  rest : List τ

def reportRates (rig : Rig ε σ) (now : τ) : Drive τ σ ε Unit := do
  let c := (← get).clock
  if le c.nextReport now then
    match wholeSecond now with
    | .error e => throw (.badTime e)
    | .ok whole =>
      onClock (modify ({ · with nextReport := add whole second }))
      onRig (rig.report c.frames c.cycles)
      onClock (modify ({ · with frames := 0, cycles := 0 }))

/-- Polls the inputs and refreshes the display when a frame is due; says whether to quit. -/
def showFrame (rig : Rig ε σ) (now : τ) : Drive τ σ ε Bool := do
  if le (← get).clock.nextFrame now then
    if ← onRig rig.poll then return true
    onClock (checked now)
    onClock (modify ({ · with nextFrame := add now frameSpan }))
    onRig rig.refresh
    onClock (modify fun c => { c with frames := c.frames + 1 })
  return false

def afterPass (c : Clock τ) : Phase τ :=
  match c.interval with
  | none => .passing
  | some _ => .waiting c.nextJob

/-- One pass; nothing follows it when the inputs ask to quit. -/
def pass (rig : Rig ε σ) (now : τ) : Drive τ σ ε (Option (Phase τ)) := do
  reportRates rig now
  if ← showFrame rig now then return none
  let _ ← step rig now
  return some (afterPass (← get).clock)

def observe (rig : Rig ε σ) (phase : Phase τ) (now : τ) : Drive τ σ ε (Option (Phase τ)) :=
  match phase with
  | .starting => do
    onClock (start now)
    return some .passing
  | .passing => pass rig now
  | .waiting time => return some (if lt now time then .waiting time else .passing)

/-- Turns the buzzer off, if it is on, and ends a run. -/
def finish (rig : Rig ε σ) (ending : Ending ε) (d : Driven τ σ) (rest : List τ) :
    Finished τ σ ε :=
  if d.clock.buzzing then
    match setBuzzer rig false d with
    | .ok () d => ⟨ending, d, rest⟩
    | .error e d => ⟨.stopped e, d, rest⟩
  else ⟨ending, d, rest⟩

/-- Ends a run in a phase; one that never started leaves the buzzer alone. -/
def close (rig : Rig ε σ) (phase : Phase τ) (ending : Ending ε) (d : Driven τ σ)
    (rest : List τ) : Finished τ σ ε :=
  match phase with
  | .starting => ⟨ending, d, rest⟩
  | _ => finish rig ending d rest

def runFrom (rig : Rig ε σ) (phase : Phase τ) : List τ → Driven τ σ → Finished τ σ ε
  | [], d => close rig phase .unread d []
  | now :: rest, d =>
    match observe rig phase now d with
    | .error e d => close rig phase (.stopped e) d rest
    | .ok none d => close rig phase .quit d rest
    | .ok (some phase) d => runFrom rig phase rest d

def run (rig : Rig ε σ) (readings : List τ) (d : Driven τ σ) : Finished τ σ ε :=
  runFrom rig .starting readings d

end Chip8.Clock
