import Chip8.HostCall
import Chip8.Keymap
import Chip8.Keypad

/-!
# Inputs

Host events turned into presses and releases on the keypad.  A window gives up when it is closed
or when the escape key goes down; the events after that one still count.  Without a window the
events are replayed, and each key event is answered with whether its key is mapped.

The code of a host key is compared as a number, so values of different kinds may name the same
key.  A list or an object is no code at all, and cuts a batch of events short.
-/

namespace Chip8

inductive HostEvent
  | down (code : HostValue)
  | up (code : HostValue)
  | quit
  | other

structure Inputs where
  keymap : Keymap
  windowed : Bool

namespace Inputs

inductive Error
  /-- A list or an object is no code of a key. -/
  | noCode
  /-- The host refuses to tell its events. -/
  | refused (reason : Reason)
  deriving DecidableEq, Repr

def escape : Int := 27

def key? (i : Inputs) : HostValue → Except Error (Option Nibble)
  | .list _ => .error .noCode
  | .object _ => .error .noCode
  | code => .ok (code.whole?.bind i.keymap.key?)

/-- Passes a host key event on to the keypad; the answer says whether the key is mapped. -/
def keyEvent (i : Inputs) (k : Keypad) (code : HostValue) (isDown : Bool) :
    Except Error (Bool × Keypad) := do
  match ← i.key? code with
  | none => return (false, k)
  | some key => return (true, k.set key isDown)

def handle (i : Inputs) (k : Keypad) : HostEvent → Except Error (Bool × Keypad × List HostCall)
  | .down code =>
    if i.windowed ∧ code.whole? = some escape then return (true, k, [])
    else do
      let (mapped, k) ← i.keyEvent k code true
      return (false, k, if i.windowed then [] else [.key mapped])
  | .up code => do
    let (mapped, k) ← i.keyEvent k code false
    return (false, k, if i.windowed then [] else [.key mapped])
  | .quit => return (true, k, [])
  | .other => return (false, k, [])

/-- What a batch of events leaves: the keypad, whether to quit, the answers given, and the error
that cut it short, if one did. -/
structure Polled where
  keypad : Keypad
  quit : Bool
  calls : List HostCall
  failure : Option Error

def handleAll (i : Inputs) (k : Keypad) : List HostEvent → Polled
  | [] => ⟨k, false, [], none⟩
  | event :: rest =>
    match i.handle k event with
    | .error e => ⟨k, false, [], some e⟩
    | .ok (quit, k, calls) =>
      let later := i.handleAll k rest
      { later with quit := quit || later.quit, calls := calls ++ later.calls }

end Inputs

end Chip8
