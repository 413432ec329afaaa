import Chip8.About
import Chip8.Screen

/-!
# Displays

The picture that a program draws on: a rectangle of pixels that are lit or not.  A program can
only flip pixels, at coordinates that wrap around the edges, and learns whether a pixel was lit.
Each flip is passed on to the screen at once; the screen draws when the host asks for a refresh.
-/

namespace Chip8

structure Display (ρ : Type) where
  screen : ρ
  width : Nat
  height : Nat
  width_pos : 0 < width
  height_pos : 0 < height
  /-- The pixels, row by row. -/
  lit : Vector Bool (width * height)
  /-- Whether anything was drawn since the last refresh. -/
  changed : Bool

namespace Display

inductive Error
  | tooSmall
  | memory (e : Memory.Error)
  | screen (e : ScreenError)
  deriving DecidableEq, Repr

def Error.message : Error → String
  | .tooSmall => "Display must be at least 1x1 pixels"
  | .memory e => e.message
  | .screen _ => ""

def title (frames cycles : Int) : String :=
  About.name ++ " - " ++ toString frames ++ " FPS, " ++ toString cycles ++ " OPS"

abbrev Result (ρ α : Type) := EStateM.Result ScreenError (Display ρ) α

section

variable {ρ : Type} [Screen ρ]

def standardWidth : Int := 64

def standardHeight : Int := 32

def report (d : Display ρ) (frames cycles : Int) : Reply ScreenError (Display ρ) :=
  let r := Screen.setTitle d.screen (title frames cycles)
  ⟨{ d with screen := r.state }, r.calls, r.failure⟩

/-- Why there is no display, and how far the screen and its calls went. -/
structure Failure (ρ : Type) where
  error : Error
  screen : ρ
  calls : List HostCall

/-- A dark display on a screen that is given the same resolution. -/
def new (room : Memory.Room) (screen : ρ) (width height : Int) :
    Except (Failure ρ) (Display ρ × List HostCall) :=
  if h : 0 < width ∧ 0 < height then
    match Memory.checkSize room (width * height) with
    | .error e => .error ⟨.memory e, screen, []⟩
    | .ok () =>
      let r := Screen.setResolution room screen width height
      match r.failure with
      | some e => .error ⟨.screen e, r.state, r.calls⟩
      | none =>
        let d : Display ρ :=
          { screen := r.state, width := width.toNat, height := height.toNat,
            width_pos := by omega, height_pos := by omega,
            lit := Vector.replicate _ false, changed := true }
        let s := d.report 0 0
        match s.failure with
        | some e => .error ⟨.screen e, s.state.screen, r.calls ++ s.calls⟩
        | none => .ok (s.state, r.calls ++ s.calls)
  else .error ⟨.tooSmall, screen, []⟩

end

variable {ρ : Type}

def column (d : Display ρ) (x : Int) : Nat := (x % d.width).toNat

def row (d : Display ρ) (y : Int) : Nat := (y % d.height).toNat

theorem column_lt (d : Display ρ) (x : Int) : d.column x < d.width := by
  have := d.width_pos
  have := Int.emod_lt_of_pos x (show (0 : Int) < d.width by omega)
  have := Int.emod_nonneg x (show (d.width : Int) ≠ 0 by omega)
  simp only [column]; omega

theorem row_lt (d : Display ρ) (y : Int) : d.row y < d.height := by
  have := d.height_pos
  have := Int.emod_lt_of_pos y (show (0 : Int) < d.height by omega)
  have := Int.emod_nonneg y (show (d.height : Int) ≠ 0 by omega)
  simp only [row]; omega

theorem place_lt (d : Display ρ) (x y : Int) :
    d.row y * d.width + d.column x < d.width * d.height := by
  have hx := d.column_lt x
  have hy := d.row_lt y
  calc
    d.row y * d.width + d.column x < d.row y * d.width + d.width := by omega
    _ = (d.row y + 1) * d.width := by rw [Nat.add_mul, Nat.one_mul]
    _ ≤ d.height * d.width := Nat.mul_le_mul_right _ hy
    _ = d.width * d.height := Nat.mul_comm _ _

def place (d : Display ρ) (x y : Int) : Fin (d.width * d.height) :=
  ⟨d.row y * d.width + d.column x, d.place_lt x y⟩

def isLit (d : Display ρ) (x y : Int) : Bool := d.lit[d.place x y]

/-- The pixels as bytes, row by row, one for a lit pixel. -/
def snapshot (d : Display ρ) : List UInt8 := d.lit.toList.map fun b => if b then 1 else 0

def rows (d : Display ρ) : List (List Bool) :=
  (List.range d.height).map fun (y : Nat) =>
    (List.range d.width).map fun (x : Nat) => d.isLit x y

def coordinates (d : Display ρ) : List (Int × Int) :=
  (List.range d.height).flatMap fun (y : Nat) =>
    (List.range d.width).map fun (x : Nat) => ((x : Int), (y : Int))

def onScreen {α : Type} (d : Display ρ) (act : ρ → EStateM.Result ScreenError ρ α) : Result ρ α :=
  match d with
  | ⟨screen, width, height, width_pos, height_pos, lit, changed⟩ =>
    match act screen with
    | .ok a screen => .ok a ⟨screen, width, height, width_pos, height_pos, lit, changed⟩
    | .error e screen => .error e ⟨screen, width, height, width_pos, height_pos, lit, changed⟩

variable [Screen ρ]

/-- Flips a pixel; the result says whether it was lit. -/
def flip (d : Display ρ) (x y : Int) : Result ρ Bool :=
  let was := d.isLit x y
  let column := d.column x
  let row := d.row y
  let d := { d with lit := d.lit.set (d.place x y) (!was) }
  match d.onScreen fun screen => Screen.setPixel screen column row (if was then 0 else 1) with
  | .error e d => .error e d
  | .ok () d => .ok was { d with changed := true }

/-- Flips one pixel after the other; the result says whether any was lit when its turn came. -/
def flipEach (d : Display ρ) : List (Int × Int) → Result ρ Bool
  | [] => .ok false d
  | (x, y) :: rest =>
    match d.flip x y with
    | .error e d => .error e d
    | .ok was d =>
      match d.flipEach rest with
      | .error e d => .error e d
      | .ok others d => .ok (was || others) d

def clear (d : Display ρ) : Result ρ Unit :=
  let coordinates := d.coordinates
  let d := { d with lit := Vector.replicate _ false, changed := true }
  d.onScreen fun screen => Screen.paint 0 screen coordinates

def refresh (d : Display ρ) : Reply ScreenError (Display ρ) :=
  let r := Screen.refresh d.screen d.changed
  ⟨{ d with screen := r.state, changed := d.changed && r.failure.isSome }, r.calls, r.failure⟩

end Display

end Chip8
