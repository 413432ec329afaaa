import Chip8.Clock
import Chip8.Inputs
import Chip8.Machine.Cycle
import Chip8.Speaker

/-!
# Consoles

A machine together with its inputs and its speaker, and what the host has in store for it: the
batches of events that it will find when it polls.  A console keeps the calls that it made and
the lines that it printed, and is what a clock drives.
-/

namespace Chip8

structure Console (ρ : Type) where
  machine : Machine ρ
  inputs : Inputs
  speaker : Speaker
  /-- The batches of events still to come, each of which the host may refuse to tell. -/
  batches : List (Except Reason (List HostEvent))
  log : Array HostCall
  printed : Array String

namespace Console

inductive Error
  | machine (e : Machine.Error)
  | screen (e : ScreenError)
  | speaker (e : Mixer.Error)
  | inputs (e : Inputs.Error)
  deriving DecidableEq, Repr

variable {ρ : Type} [Screen ρ]

/-- The result of an operation, which keeps the console also when it fails. -/
abbrev Result (ρ α : Type) := EStateM.Result Error (Console ρ) α

def note (c : Console ρ) (calls : List HostCall) : Console ρ := { c with log := c.log ++ calls }

def cycle (c : Console ρ) : Result ρ Unit :=
  let turn := c.machine.cycle
  let c := { c with machine := turn.machine, printed := c.printed ++ turn.printed.toList }
  match turn.outcome with
  | .ok _ => .ok () c
  | .error e => .error (.machine e) c

def tick (c : Console ρ) : Result ρ Unit := .ok () { c with machine := c.machine.tick }

def sounding (c : Console ρ) : Result ρ Bool := .ok c.machine.sounding c

def buzz (on : Bool) (c : Console ρ) : Result ρ Unit :=
  let r := c.speaker.enable on
  let c := { c with speaker := r.state }.note r.calls
  match r.failure with
  | none => .ok () c
  | some e => .error (.speaker e) c

/-- Takes in a batch of events; says whether it asks to quit. -/
def take (c : Console ρ) (events : List HostEvent) : Result ρ Bool :=
  let polled := c.inputs.handleAll c.machine.keypad events
  let c := { c with machine := { c.machine with keypad := polled.keypad } }.note polled.calls
  match polled.failure with
  | none => .ok polled.quit c
  | some e => .error (.inputs e) c

/-- Takes in the next batch of events; there are none after the last batch. -/
def poll (c : Console ρ) : Result ρ Bool :=
  let next := c.batches.headD (.ok [])
  let c := { c with batches := c.batches.tail }.note [.poll]
  match next with
  | .ok events => c.take events
  | .error reason => .error (.inputs (.refused reason)) c

/-- Takes over what a request left of the display. -/
def showing (c : Console ρ) (r : Reply ScreenError (Display ρ)) : Result ρ Unit :=
  let c := { c with machine := { c.machine with display := r.state } }.note r.calls
  match r.failure with
  | none => .ok () c
  | some e => .error (.screen e) c

def refresh (c : Console ρ) : Result ρ Unit := c.showing c.machine.display.refresh

def report (frames cycles : Nat) (c : Console ρ) : Result ρ Unit :=
  c.showing (c.machine.display.report frames cycles)

def rig : Rig Error (Console ρ) where
  tick := tick
  cycle := cycle
  sounding := sounding
  buzz := buzz
  poll := poll
  refresh := refresh
  report := report

end Console

end Chip8
