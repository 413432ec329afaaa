import Chip8.About
import Chip8.Clock.Run
import Chip8.Console
import Chip8.Plugins
import Chip8.Screen.Grid
import Chip8.Screen.Window

/-!
# Sessions

A session runs one program from its settings to the end.  It chooses the plugins, reads the
program, opens the screen, the inputs and the speaker, builds the machine and has a clock drive
it.  However it ends, whatever it opened is shut down: the speaker, then the inputs, then the
screen.
-/

namespace Chip8

/-- The settings of a session.  A setting may not have been given; it is missed when it is first
needed. -/
structure Settings where
  indexOverflow : Option HostValue
  renderer : Option HostValue
  mute : Option HostValue
  scale : Option HostValue
  palette : Option HostValue
  keymap : Option HostValue
  tone : Option HostValue
  debug : Option HostValue
  clockSpeed : Option HostValue

structure Host where
  windowAvailable : Bool
  room : Memory.Room
  /-- What it will answer to the calls of the window. -/
  windowAnswers : Answers
  /-- What it will answer to the calls of the mixer. -/
  mixerAnswers : Answers
  /-- The bytes of the program, if it can be read. -/
  program : Option (Array UInt8)
  /-- What the clock will show, one reading after the other. -/
  readings : List Number
  /-- The events that each poll will find, unless it is refused. -/
  batches : List (Except Reason (List HostEvent))
  random : RandomSource

namespace Session

inductive Error
  | missing (setting : String)
  /-- A setting is no number. -/
  | notNumber (setting : String)
  | plugins (e : Plugins.Error)
  | noProgram
  | window (e : Window.Error)
  | display (e : Display.Error)
  | keymap (e : Keymap.Error)
  | number (e : ArithmeticError)
  | speaker (e : Mixer.Error)
  | memory (e : Memory.Error)
  | machine (e : Machine.Error)
  | clock (s : Clock.Stop Console.Error)
  /-- The host's clock gave no further reading. -/
  | unread

/-- What is said about an error; nothing about those of the host. -/
def Error.message : Error → String
  | .plugins e => e.message
  | .window (.palette e) => e.message
  | .display e => e.message
  | .keymap e => e.message
  | .machine e => e.message
  | .clock (.failed (.machine e)) => e.message
  | _ => ""

structure Stage (ρ : Type) where
  screen : ρ
  inputs : Option Inputs
  speaker : Option Speaker
  log : Array HostCall
  printed : Array String
  readings : List Number

def need {α : Type} (setting : String) : Option α → Except Error α
  | some a => .ok a
  | none => .error (.missing setting)

/-- The work of a session once the screen is open: it keeps what it did when it fails. -/
abbrev Work (ρ α : Type) := EStateM Error (Stage ρ) α

variable {ρ α : Type} [Screen ρ]

def check (result : Except Error α) : Work ρ α :=
  match result with
  | .ok a => pure a
  | .error e => throw e

def note (calls : List HostCall) : Work ρ Unit := modify fun s => { s with log := s.log ++ calls }

def openDisplay (room : Memory.Room) : Work ρ (Display ρ) := do
  match Display.new room (← get).screen Display.standardWidth Display.standardHeight with
  | .error failure =>
    note failure.calls
    modify fun s => { s with screen := failure.screen }
    throw (.display failure.error)
  | .ok (display, calls) =>
    note calls
    modify fun s => { s with screen := display.screen }
    return display

/-- Opens the inputs; without a keymap the standard one is taken. -/
def openInputs (settings : Settings) (plugins : Plugins) : Work ρ Inputs := do
  let given ← check (need "keymap" settings.keymap)
  let keymap ← check ((Keymap.ofValue
    (if given.truth then given else .text Keymap.standardText)).mapError .keymap)
  let inputs : Inputs := ⟨keymap, plugins.windowed⟩
  modify fun s => { s with inputs }
  return inputs

def setPitch (room : Memory.Room) (speaker : Speaker) (hertz : Number) : Work ρ Unit := do
  let r := speaker.setFrequency room hertz
  note r.calls
  modify fun s => { s with speaker := some r.state }
  match r.failure with
  | some e => throw (.speaker e)
  | none => return

/-- The pitch that a setting asks for; a text is read as a number. -/
def pitch : HostValue → Except Error Number
  | .null => return Mixer.standardPitch
  | .text s =>
    match Text.real? s with
    | some x => return .real x
    | none => throw (.number .notANumber)
  | tone =>
    match tone.number? with
    | some n => return .real (← n.toFloat.mapError .number)
    | none => throw (.notNumber "tone")

def openSpeaker (settings : Settings) (host : Host) (plugins : Plugins) : Work ρ Unit := do
  let r := Speaker.new host.room host.mixerAnswers plugins.silent
  note r.calls
  match r.failure with
  | some e => throw (.speaker e)
  | none =>
    modify fun s => { s with speaker := some r.state }
    setPitch host.room r.state (← check (pitch (← check (need "tone" settings.tone))))

def buildMachine (settings : Settings) (host : Host) (indexOverflow : Bool)
    (program : Array UInt8) (display : Display ρ) : Work ρ (Machine ρ) := do
  let debug ← check (need "debug" settings.debug)
  let memory ← check ((Memory.ofSize host.room Machine.memorySize).mapError .memory)
  let m ← check ((Machine.new memory Machine.stackDepth display host.random indexOverflow
    debug.truth).mapError .machine)
  modify fun s => { s with screen := m.display.screen }
  match m.load program with
  | .error e m =>
    modify fun s => { s with screen := m.display.screen }
    throw (.machine e)
  | .ok () m =>
    modify fun s => { s with screen := m.display.screen }
    return m

def speed : HostValue → Except Error Number
  | .null => return Clock.standardSpeed
  | value =>
    match value.number? with
    | some n => return n
    | none => throw (.notNumber "clock_speed")

def clockOf (value : HostValue) : Except Error (Clock Number) := do
  let interval ← (Clock.intervalOf (← speed value)).mapError .number
  return Clock.new (interval.map .real) (.real 0.0)

def setClock (settings : Settings) : Except Error (Clock Number) := do
  clockOf (← need "clock_speed" settings.clockSpeed)

def crash? : Clock.Stop Console.Error → Option Machine.Error
  | .failed (.machine (.fault f)) => some (.fault f)
  | .failed (.machine (.halted f)) => some (.halted f)
  | .failed (.machine (.programTooLarge size limit)) => some (.programTooLarge size limit)
  | _ => none

def lines (text : String) : Array String := (text.splitOn "\n").toArray

def explain (c : Console ρ) (e : Machine.Error) : Console ρ :=
  { c with printed := c.printed ++ lines (c.machine.crashReport e.message) }

def settle (c : Console ρ) (readings : List Number) : Work ρ Unit :=
  modify fun s =>
    { s with
      screen := c.machine.display.screen
      speaker := some c.speaker
      log := c.log
      printed := c.printed
      readings }

/-- Ends a run of the clock.  If the machine crashed, its last picture is left on the screen, and
a report follows. -/
def closeRun (finished : Clock.Finished Number (Console ρ) Console.Error) : Work ρ Unit :=
  let c := finished.state.rig
  match finished.ending with
  | .quit => settle c finished.rest
  | .unread => do
    settle c finished.rest
    throw .unread
  | .stopped stop =>
    match crash? stop with
    | none => do
      settle c finished.rest
      throw (.clock stop)
    | some e =>
      match c.refresh with
      | .ok () c => do
        settle (explain c e) finished.rest
        throw (.clock stop)
      | .error f c => do
        settle c finished.rest
        throw (.clock (.failed f))

def assemble (settings : Settings) (host : Host) (plugins : Plugins) (indexOverflow : Bool)
    (program : Array UInt8) : Work ρ (Driven Number (Console ρ)) := do
  let display ← openDisplay host.room
  let inputs ← openInputs settings plugins
  openSpeaker settings host plugins
  let machine ← buildMachine settings host indexOverflow program display
  let clock ← check (setClock settings)
  let s ← get
  return {
    clock
    rig :=
      { machine, inputs, speaker := s.speaker.getD .silent, batches := host.batches,
        log := s.log, printed := s.printed } }

def perform (settings : Settings) (host : Host) (plugins : Plugins) (indexOverflow : Bool)
    (program : Array UInt8) : Work ρ Unit := do
  let driven ← assemble settings host plugins indexOverflow program
  closeRun (Clock.run Console.rig (← get).readings driven)

def shutdowns (s : Stage ρ) : List HostCall :=
  (s.speaker.map Speaker.shutdown).getD []
    ++ (if s.inputs.isSome then [.inputsShutdown] else [])
    ++ Screen.shutdown s.screen

def release (s : Stage ρ) : Stage ρ := { s with log := s.log ++ shutdowns s }

/-- Works with an open screen and shuts everything down after it. -/
def conclude (work : Work ρ Unit) (s : Stage ρ) : Except Error Unit × Stage ρ :=
  match work s with
  | .ok () s => (.ok (), release s)
  | .error e s => (.error e, release s)

inductive LastScreen
  | unopened
  | grid (g : Grid)
  | window (w : Window)

structure Outcome where
  result : Except Error Unit
  log : Array HostCall
  printed : Array String
  /-- The readings of the clock that were not taken. -/
  readings : List Number
  screen : LastScreen

/-- A session that ends before it opens a screen. -/
def refuse (host : Host) (e : Error) (calls : List HostCall) : Outcome where
  result := .error e
  log := calls.toArray
  printed := #[About.banner]
  readings := host.readings
  screen := .unopened

/-- What is settled before a screen is opened: the plugins, the flag on overflow, the program. -/
def prepare (settings : Settings) (host : Host) :
    Except Error (Plugins × Bool × Array UInt8) := do
  let indexOverflow ← need "index_overflow_quirks" settings.indexOverflow
  let renderer ← need "renderer" settings.renderer
  let mute ← need "mute" settings.mute
  let plugins ← (Plugins.select host.windowAvailable renderer mute.truth).mapError .plugins
  match host.program with
  | none => throw .noProgram
  | some program => return (plugins, indexOverflow.truth, program)

def appearance (settings : Settings) : Except Error (HostValue × HostValue) := do
  let scale ← need "scale" settings.scale
  let palette ← need "palette" settings.palette
  return (scale, palette)

def opened (host : Host) (screen : ρ) (calls : List HostCall) : Stage ρ :=
  ⟨screen, none, none, calls.toArray, #[About.banner], host.readings⟩

def outcome (settings : Settings) (host : Host) (plugins : Plugins) (indexOverflow : Bool)
    (program : Array UInt8) (screen : ρ) (calls : List HostCall) (last : ρ → LastScreen) :
    Outcome :=
  let (result, s) := conclude (perform settings host plugins indexOverflow program)
    (opened host screen calls)
  ⟨result, s.log, s.printed, s.readings, last s.screen⟩

def run (settings : Settings) (host : Host) : Outcome :=
  match prepare settings host with
  | .error e => refuse host e []
  | .ok (plugins, indexOverflow, program) =>
    match appearance settings with
    | .error e => refuse host e []
    | .ok (scale, palette) =>
      if plugins.windowed then
        match Window.new host.windowAnswers scale palette with
        | (.error e, calls) => refuse host (.window e) calls
        | (.ok w, calls) => outcome settings host plugins indexOverflow program w calls .window
      else outcome settings host plugins indexOverflow program (Grid.new scale) [] .grid

end Session

end Chip8
