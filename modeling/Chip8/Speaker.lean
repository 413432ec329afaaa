import Chip8.HostCall
import Chip8.SquareWave

/-!
# Speakers

The buzzer on the host.  A mixer loops a square wave while the buzzer is on; the wave is built
anew for each pitch.  A silent speaker takes every request and makes no sound.
-/

namespace Chip8

structure Mixer where
  frequency : Option Number
  buzzing : Bool
  /-- The number of the current sound. -/
  sound : Option Nat
  /-- How many sounds were made so far. -/
  made : Nat
  /-- What the host will answer to the mixer's calls. -/
  answers : Answers

namespace Mixer

inductive Error
  /-- No wave has this pitch. -/
  | wave (e : SquareWave.Error)
  /-- There is no sound to play or to stop. -/
  | noSound
  /-- The host refuses a call. -/
  | refused (reason : Reason)
  deriving DecidableEq, Repr

def standardPitch : Number := .real 440.0

def level : Float := 0.1

def request (m : Mixer) (calls : List HostCall) : Reply Error Mixer :=
  (HostCall.ask .refused calls m.answers).map ({ m with answers := · })

def switch (m : Mixer) (on : Bool) : Reply Error Mixer :=
  match m.sound with
  | none => ⟨m, [], some .noSound⟩
  | some sound => m.request [if on then .play sound (-1) else .stop sound]

/-- Makes the sound of a pitch, and plays it if the buzzer is on. -/
def makeSound (room : Memory.Room) (m : Mixer) (hertz : Number) : Reply Error Mixer :=
  match SquareWave.samples room hertz with
  | .error e => ⟨m, [], some (.wave e)⟩
  | .ok samples =>
    (m.request [.newSound m.made samples]).andThen fun m =>
      { m with sound := some m.made, made := m.made + 1 }.request
        (.volume m.made level :: if m.buzzing then [.play m.made (-1)] else [])

/-- Changes the pitch; the pitch in force is left alone. -/
def setFrequency (room : Memory.Room) (m : Mixer) (hertz : Number) : Reply Error Mixer :=
  if m.frequency.any hertz.equals then .done m []
  else
    let m := { m with frequency := some hertz }
    (if m.buzzing then m.switch false else .done m []).andThen (·.makeSound room hertz)

/-- Turns the buzzer on or off; a buzzer already in that state is left alone. -/
def enable (m : Mixer) (on : Bool) : Reply Error Mixer :=
  (if on = m.buzzing then .done m [] else m.switch on).andThen
    fun m => .done { m with buzzing := on } []

def shutdown (m : Mixer) : List HostCall :=
  m.sound.toList.map .stop ++ [.closeMixer]

def new (room : Memory.Room) (answers : Answers) : Reply Error Mixer :=
  (request ⟨none, false, none, 0, answers⟩ [.setupMixer 44100 8 1 512 0, .openMixer]).andThen
    fun m =>
      let r := m.setFrequency room standardPitch
      { r with calls := .frequency standardPitch :: r.calls }

end Mixer

inductive Speaker
  | silent
  | mixer (m : Mixer)

namespace Speaker

/-- Passes a request on to the mixer, if there is one, after noting it. -/
def request (s : Speaker) (note : HostCall) (act : Mixer → Reply Mixer.Error Mixer) :
    Reply Mixer.Error Speaker :=
  match s with
  | .silent => .done .silent [note]
  | .mixer m =>
    let r := act m
    ⟨.mixer r.state, note :: r.calls, r.failure⟩

def setFrequency (room : Memory.Room) (s : Speaker) (hertz : Number) :
    Reply Mixer.Error Speaker :=
  s.request (.frequency hertz) (·.setFrequency room hertz)

def enable (s : Speaker) (on : Bool) : Reply Mixer.Error Speaker :=
  s.request (.buzzer on) (·.enable on)

def shutdown : Speaker → List HostCall
  | .silent => [.audioShutdown]
  | .mixer m => .audioShutdown :: m.shutdown

def new (room : Memory.Room) (answers : Answers) (mute : Bool) : Reply Mixer.Error Speaker :=
  if mute then .done .silent [] else (Mixer.new room answers).map .mixer

end Speaker

end Chip8
