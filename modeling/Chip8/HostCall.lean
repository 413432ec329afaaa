import Chip8.Number

/-!
# Calls to the host

What the program asks of its host, as data and in order: requests to the plugins, and the calls
that the window, the mixer and its sounds receive.  The host may refuse any call to the window, the
mixer and its sounds, for reasons of its own.
-/

namespace Chip8

inductive HostCall
  /-- Requests to the screen, the inputs and the speaker. -/
  | title (text : String)
  | refresh (changed : Bool)
  | poll
  | key (mapped : Bool)
  | frequency (hertz : Number)
  | buzzer (on : Bool)
  | audioShutdown
  | inputsShutdown
  | screenShutdown
  /-- Calls to the window. -/
  | startDisplay
  | openWindow (width height : Number)
  | caption (text : String)
  | frame (width height : Int) (pixels : Array UInt8)
  | scale (width height : Number)
  | blit
  | flip
  | closeWindow
  /-- Calls to the mixer, and to sounds by their number. -/
  | setupMixer (rate bits channels buffer allowedChanges : Nat)
  | openMixer
  | newSound (sound : Nat) (samples : Array UInt8)
  | volume (sound : Nat) (level : Float)
  | play (sound : Nat) (loops : Int)
  | stop (sound : Nat)
  | closeMixer

/-- Why the host refuses a call. -/
abbrev Reason := String

/-- What the host will answer to the calls to come, one after the other: it refuses a call, or takes
it.  It takes every call after those. -/
abbrev Answers := List (Option Reason)

/-- What a request leaves: the state after it, the calls that it made, and the error that cut it
short, if one did. -/
structure Reply (ε σ : Type) where
  state : σ
  calls : List HostCall
  failure : Option ε

namespace Reply

variable {ε σ τ : Type}

def done (state : σ) (calls : List HostCall) : Reply ε σ := ⟨state, calls, none⟩

def andThen (r : Reply ε σ) (next : σ → Reply ε σ) : Reply ε σ :=
  match r.failure with
  | some _ => r
  | none =>
    let s := next r.state
    ⟨s.state, r.calls ++ s.calls, s.failure⟩

def map (f : σ → τ) (r : Reply ε σ) : Reply ε τ := ⟨f r.state, r.calls, r.failure⟩

@[simp] theorem state_done (state : σ) (calls : List HostCall) :
    (done state calls : Reply ε σ).state = state := rfl

@[simp] theorem calls_done (state : σ) (calls : List HostCall) :
    (done state calls : Reply ε σ).calls = calls := rfl

@[simp] theorem failure_done (state : σ) (calls : List HostCall) :
    (done state calls : Reply ε σ).failure = none := rfl

@[simp] theorem done_andThen (state : σ) (calls : List HostCall) (next : σ → Reply ε σ) :
    (done state calls).andThen next
      = ⟨(next state).state, calls ++ (next state).calls, (next state).failure⟩ := rfl

@[simp] theorem map_done (f : σ → τ) (state : σ) (calls : List HostCall) :
    (done state calls : Reply ε σ).map f = done (f state) calls := rfl

end Reply

/-- Makes some calls until the host refuses one; what is left are the answers to later ones. -/
def HostCall.ask {ε : Type} (refused : Reason → ε) : List HostCall → Answers → Reply ε Answers
  | [], answers => .done answers []
  | calls, [] => .done [] calls
  | call :: _, some reason :: answers => ⟨answers, [call], some (refused reason)⟩
  | call :: rest, none :: answers => (Reply.done answers [call]).andThen (ask refused rest)

@[simp] theorem HostCall.ask_nil {ε : Type} (refused : Reason → ε) (calls : List HostCall) :
    ask refused calls [] = .done [] calls := by
  cases calls <;> rfl

end Chip8
