import Chip8.HostCall
import Chip8.Memory

/-!
# Screens

What shows the display to the host: it is given a resolution, takes single pixels as they change,
and draws when it is asked to refresh.
-/

namespace Chip8

inductive ScreenError
  /-- No pixel has this place. -/
  | noPixel
  /-- No colour has this number. -/
  | noColour
  /-- A colour does not fit a pixel. -/
  | colourRange
  /-- The three bytes of a pixel do not lie in the buffer. -/
  | pastBuffer
  /-- No buffer holds as many pixels. -/
  | memory (e : Memory.Error)
  /-- A buffer does not make a frame of the given measures. -/
  | badFrame
  /-- The host refuses a call. -/
  | refused (reason : Reason)
  deriving DecidableEq, Repr

class Screen (ρ : Type) where
  setResolution : Memory.Room → ρ → (width height : Int) → Reply ScreenError ρ
  setPixel : ρ → (x y colour : Int) → EStateM.Result ScreenError ρ Unit
  /-- Draws, if the content has changed. -/
  refresh : ρ → (changed : Bool) → Reply ScreenError ρ
  setTitle : ρ → String → Reply ScreenError ρ
  shutdown : ρ → List HostCall

namespace Screen

variable {ρ : Type} [Screen ρ]

/-- Gives the same colour to each of the listed pixels, up to the first that has no place. -/
def paint (colour : Int) (screen : ρ) : List (Int × Int) → EStateM.Result ScreenError ρ Unit
  | [] => .ok () screen
  | (x, y) :: rest =>
    match setPixel screen x y colour with
    | .error e screen => .error e screen
    | .ok () screen => paint colour screen rest

end Screen

end Chip8
