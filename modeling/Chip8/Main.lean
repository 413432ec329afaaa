import Chip8.CommandLine

/-!
# The program

Runs a program file headless, in real time, until it fails.  Windows are not available.
-/

namespace Chip8.Main

def now : IO Number := do
  return .real ((← IO.monoNanosNow).toFloat / 1000000000.0)

def printFrom (count : Nat) (lines : Array String) : IO Unit := do
  for line in lines.extract count lines.size do
    IO.println line

/-- Drives a console by the host's clock until it stops. -/
partial def drive (phase : Clock.Phase Number) (d : Driven Number (Console Grid)) :
    IO (Clock.Finished Number (Console Grid) Console.Error) := do
  let count := d.rig.printed.size
  match Clock.observe Console.rig phase (← now) d with
  | .ok none d => return Clock.close Console.rig phase .quit d []
  | .error e d =>
    printFrom count d.rig.printed
    return Clock.close Console.rig phase (.stopped e) d []
  | .ok (some phase) d =>
    printFrom count d.rig.printed
    drive phase { d with rig := { d.rig with log := #[] } }

def complain (e : Session.Error) : IO UInt32 := do
  IO.eprintln e.message
  return 1

/-- Runs a session in real time. -/
def play (settings : Settings) (host : Host) : IO UInt32 := do
  IO.println About.banner
  match Session.prepare settings host, Session.appearance settings with
  | .ok (plugins, indexOverflow, program), .ok (scale, _) =>
    let stage := Session.opened host (Grid.new scale) []
    match Session.assemble settings host plugins indexOverflow program stage with
    | .error e _ => complain e
    | .ok d stage =>
      let finished ← drive .starting d
      let count := finished.state.rig.printed.size
      let (result, stage) := Session.conclude (Session.closeRun finished) stage
      printFrom count stage.printed
      match result with
      | .ok () => return 0
      | .error e => complain e
  | .error e, _ => complain e
  | _, .error e => complain e

def randomBytes : IO RandomSource := do
  let mut bytes := #[]
  for _ in [0:65536] do
    bytes := bytes.push (← IO.rand 0 255)
  let values := bytes
  return { value := fun k => (values[k % values.size]?.getD 0 : Nat), drawn := 0 }

def readProgram (path : String) : IO (Option (Array UInt8)) := do
  try
    return some (← IO.FS.readBinFile path).data
  catch _ => return none

def usage : String :=
  "usage: [-h] [-c CLOCK_SPEED] [-r RENDERER] [-s SCALE] [-m MUTE] [-t TONE] [-k KEYMAP] "
    ++ "[-p PALETTE] [--index_overflow_quirks SETTING] [-d] filename"

end Chip8.Main

open Chip8 in
def main (args : List String) : IO UInt32 := do
  match CommandLine.parse args with
  | .error .help =>
    IO.println Main.usage
    return 0
  | .error .fault =>
    IO.eprintln Main.usage
    return 2
  | .ok options =>
    let host : Host :=
      { windowAvailable := false
        room := .gigabyte
        windowAnswers := []
        mixerAnswers := []
        program := ← Main.readProgram options.filename
        readings := []
        batches := []
        random := ← Main.randomBytes }
    Main.play options.settings host
