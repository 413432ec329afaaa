import Chip8.HostValue
import Chip8.Screen

/-!
# Grids

A screen for running without a window: it keeps one byte a pixel, row by row, and draws nothing.
-/

namespace Chip8

structure Grid where
  /-- The scale that was asked for, which changes nothing. -/
  scale : HostValue
  width : Int
  height : Int
  title : String
  pixels : Array UInt8

namespace Grid

def standardScale : HostValue := .int 1

def new : (scale : HostValue) → Grid
  | .null => ⟨standardScale, 0, 0, "", #[]⟩
  | scale => ⟨scale, 0, 0, "", #[]⟩

/-- The new measures stay even if no pixels can be had for them. -/
def setResolution (room : Memory.Room) (g : Grid) (width height : Int) :
    Reply ScreenError Grid :=
  let g := { g with width, height }
  match Memory.checkSize room (width * height) with
  | .error e => ⟨g, [], some (.memory e)⟩
  | .ok () => .done { g with pixels := Array.replicate (width * height).toNat 0 } []

/-- Pixels before the first are counted from the end. -/
def setPixel (g : Grid) (x y colour : Int) : EStateM.Result ScreenError Grid Unit :=
  let place := y * g.width + x
  if ¬Memory.Countable place then .error .noPixel g
  else if ¬(0 ≤ colour ∧ colour < 256) then .error .colourRange g
  else
    match Memory.cell? g.pixels.size place with
    | none => .error .noPixel g
    | some i => .ok () { g with pixels := g.pixels.set i (UInt8.ofNat colour.toNat) i.isLt }

instance : Screen Grid where
  setResolution := setResolution
  setPixel := setPixel
  refresh g changed := .done g [.refresh changed]
  setTitle g text := .done { g with title := text } [.title text]
  shutdown _ := [.screenShutdown]

end Grid

end Chip8
