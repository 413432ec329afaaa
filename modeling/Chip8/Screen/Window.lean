import Chip8.About
import Chip8.Palette
import Chip8.Screen

/-!
# Windows

A screen in a window: pixels are collected as colours in a buffer, three bytes each, which is
handed over as one frame and stretched to the window's size.  A frame is refused unless the buffer
has just the bytes for its measures.  Nothing is drawn while nothing has changed.
-/

namespace Chip8

structure Window where
  /-- The width of the window on the host; it is half as high. -/
  scale : Number
  background : Rgb
  foreground : Rgb
  width : Int
  height : Int
  title : String
  buffer : Array UInt8
  /-- What the host will answer to the window's calls. -/
  answers : Answers

namespace Window

inductive Error
  | palette (e : Palette.Error)
  /-- A colour has no red, green and blue parts. -/
  | colourRange
  /-- A scale is no number. -/
  | badScale
  /-- The host refuses a call. -/
  | refused (reason : Reason)
  deriving DecidableEq, Repr

/-- The width of a window if none is asked for. -/
def standardScale : Number := .whole 640

def scaledHeight (w : Window) : Number := w.scale.halve

/-- The colour with a given number; numbers below zero count from the end. -/
def colour? (w : Window) (number : Int) : Option Rgb :=
  if number = 0 ∨ number = -2 then some w.background
  else if number = 1 ∨ number = -1 then some w.foreground
  else none

def request (w : Window) (calls : List HostCall) : Reply ScreenError Window :=
  (HostCall.ask .refused calls w.answers).map ({ w with answers := · })

def draw (w : Window) : Reply ScreenError Window :=
  let frame : HostCall := .frame w.width w.height w.buffer
  if 0 < w.width ∧ 0 < w.height ∧ w.buffer.size = 3 * (w.width * w.height) then
    w.request [frame, .scale w.scale w.scaledHeight, .blit, .flip]
  else ⟨w, [frame], some .badFrame⟩

/-- Draws if there is anything new and any pixel to draw it on. -/
def refresh (w : Window) (changed : Bool) : Reply ScreenError Window :=
  (Reply.done w [.refresh changed]).andThen fun w =>
    if changed && w.width != 0 && w.height != 0 then w.draw else .done w []

/-- Refuses a number of pixels that no buffer holds; fewer than no pixels count as none. -/
def checkArea (room : Memory.Room) (area : Int) : Except Memory.Error Unit :=
  if Memory.Countable area then Memory.checkSize room (3 * max area 0) else .error .hugeSize

/-- Fills the window with the background and shows it, if there is any pixel to show.  The new
measures stay even if there is no buffer for them. -/
def setResolution (room : Memory.Room) (w : Window) (width height : Int) :
    Reply ScreenError Window :=
  let w := { w with width, height }
  let area := width * height
  match checkArea room area with
  | .error e => ⟨w, [], some (.memory e)⟩
  | .ok () =>
    let w := { w with buffer := (List.replicate area.toNat w.background.bytes).toArray.flatten }
    if width ≠ 0 ∧ height ≠ 0 then w.refresh true else .done w []

def setPixel (w : Window) (x y number : Int) : EStateM.Result ScreenError Window Unit :=
  let place := (y * w.width + x) * 3
  match w.colour? number with
  | none => .error .noColour w
  | some c =>
    if Memory.Spans w.buffer.size place (place + 3) 3 then
      let start := Memory.cut w.buffer.size place
      .ok () { w with buffer := Memory.overwrite w.buffer start c.bytes.toList }
    else .error .pastBuffer w

def setTitle (w : Window) (text : String) : Reply ScreenError Window :=
  ((Reply.done w [.title text]).andThen (·.request [.caption text])).andThen
    fun w => .done { w with title := text } []

def width? : HostValue → Option Number
  | .null => some standardScale
  | value => value.number?

/-- The calls that open a window of the width that a value asks for.  Until it has a title its
caption is the program's name. -/
def opening (scale : HostValue) (answers : Answers) : Reply Error Answers :=
  (HostCall.ask .refused [.startDisplay] answers).andThen fun answers =>
    match width? scale with
    | none => ⟨answers, [], some .badScale⟩
    | some width =>
      HostCall.ask .refused [.openWindow width width.halve, .caption About.name] answers

def new (answers : Answers) (scale palette : HostValue) : Except Error Window × List HostCall :=
  match Palette.ofValue palette with
  | .error e => (.error (.palette e), [])
  | .ok p =>
    match Rgb.ofColour? p.background, Rgb.ofColour? p.foreground with
    | some background, some foreground =>
      let r := opening scale answers
      match r.failure with
      | some e => (.error e, r.calls)
      | none =>
        let width := (width? scale).getD standardScale
        (.ok ⟨width, background, foreground, 0, 0, "", #[], r.state⟩, r.calls)
    | _, _ => (.error .colourRange, [])

instance : Screen Window where
  setResolution := setResolution
  setPixel := setPixel
  refresh := refresh
  setTitle := setTitle
  shutdown _ := [.screenShutdown, .closeWindow]

end Window

end Chip8
