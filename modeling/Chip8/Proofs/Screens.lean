import Chip8.Machine.Cycle
import Chip8.Proofs.Canvas
import Chip8.Proofs.Plugins
import Chip8.Proofs.Upkeep
import Chip8.Screen.Grid

/-!
# Screens that draw unless the host refuses

What a grid or a window needs so as to be drawn at a refresh holds from the time on that it is given
its resolution: only a refusal of the host can stop it then.  Whatever the machine does, it touches
the screen by single pixels only.
-/

namespace Chip8

/-- A request to a screen went through, or the host refused it. -/
def OnlyRefused (failure : Option ScreenError) : Prop :=
  failure = none ∨ ∃ reason, failure = some (.refused reason)

/-- Every request keeps what holds of a screen once it was given a resolution, a refresh fails then
only if the host refuses it, and none of the plugins is asked to shut down but by a shutdown. -/
structure Screen.Tame {ρ : Type} [Screen ρ] (P : ρ → Prop) : Prop where
  resolution : ∀ (room : Memory.Room) (s : ρ) {width height : Int}, 0 < width → 0 < height →
    (Screen.setResolution room s width height).failure = none →
    P (Screen.setResolution room s width height).state
  pixel : ∀ (s : ρ) (x y colour : Int), P s → P (left (Screen.setPixel s x y colour))
  refresh : ∀ (s : ρ) (changed : Bool), P s → P (Screen.refresh s changed).state
  title : ∀ (s : ρ) (text : String), P s → P (Screen.setTitle s text).state
  refreshed : ∀ (s : ρ) (changed : Bool), P s → OnlyRefused (Screen.refresh s changed).failure
  working_resolution : ∀ (room : Memory.Room) (s : ρ) (width height : Int),
    Working (Screen.setResolution room s width height).calls
  working_refresh : ∀ (s : ρ) (changed : Bool), Working (Screen.refresh s changed).calls
  working_title : ∀ (s : ρ) (text : String), Working (Screen.setTitle s text).calls
  asked_shutdown : ∀ s : ρ, asked (Screen.shutdown s) = [.shutdown .screen]

theorem HostCall.failure_ask {ε : Type} (refused : Reason → ε) (calls : List HostCall)
    (answers : Answers) :
    (ask refused calls answers).failure = none ∨
      ∃ reason, (ask refused calls answers).failure = some (refused reason) := by
  induction calls generalizing answers with
  | nil => exact .inl rfl
  | cons call rest ih =>
    rcases answers with _ | ⟨_ | reason, answers⟩
    · exact .inl rfl
    · exact ih answers
    · exact .inr ⟨reason, rfl⟩

namespace Window

structure Framed (w : Window) : Prop where
  width : 0 < w.width
  height : 0 < w.height
  size : w.buffer.size = 3 * (w.width * w.height)

theorem Framed.request {w : Window} (h : w.Framed) (calls : List HostCall) :
    (w.request calls).state.Framed := ⟨h.width, h.height, h.size⟩

theorem working_request {w : Window} {calls : List HostCall} (h : Working calls) :
    Working (w.request calls).calls := working_ask h

theorem working_draw (w : Window) : Working w.draw.calls := by
  unfold draw
  dsimp only
  split
  · exact working_request (.cons nofun (.cons nofun (.cons nofun (.cons nofun .nil))))
  · exact .cons nofun .nil

theorem Framed.draw_eq {w : Window} (h : w.Framed) :
    w.draw =
      w.request
        [.frame w.width w.height w.buffer, .scale w.scale w.scaledHeight, .blit, .flip] := by
  unfold draw
  rw [if_pos ⟨h.width, h.height, h.size⟩]

theorem Framed.refresh {w : Window} (h : w.Framed) (changed : Bool) :
    (w.refresh changed).state.Framed ∧ OnlyRefused (w.refresh changed).failure := by
  unfold Window.refresh
  rw [Reply.done_andThen]
  split
  · rw [h.draw_eq]
    exact ⟨h.request _, HostCall.failure_ask _ _ _⟩
  · exact ⟨h, .inl rfl⟩

theorem working_refresh (w : Window) (changed : Bool) : Working (w.refresh changed).calls := by
  unfold refresh
  apply Reply.working_andThen
  · exact .cons nofun .nil
  · intro w
    split
    · exact w.working_draw
    · exact .nil

theorem Framed.setTitle {w : Window} (h : w.Framed) (text : String) :
    (w.setTitle text).state.Framed := by
  unfold Window.setTitle
  rw [Reply.done_andThen]
  unfold Reply.andThen
  split
  · exact h.request _
  · exact ⟨h.width, h.height, h.size⟩

end Window

/-! ## The screen of a display -/

theorem Display.screen_onScreen {ρ α : Type} (d : Display ρ)
    (act : ρ → EStateM.Result ScreenError ρ α) :
    (left (d.onScreen act)).screen = left (act d.screen) := by
  unfold onScreen
  dsimp only
  cases act d.screen <;> rfl

section

variable {ρ : Type} [Screen ρ]

namespace Display

theorem screen_flip (d : Display ρ) (x y : Int) :
    (left (d.flip x y)).screen =
      left (Screen.setPixel d.screen (d.column x) (d.row y) (if d.isLit x y then 0 else 1)) := by
  unfold flip onScreen
  dsimp only
  cases Screen.setPixel d.screen (d.column x) (d.row y) (if d.isLit x y then 0 else 1) <;> rfl

theorem screen_clear (d : Display ρ) :
    (left d.clear).screen = left (Screen.paint 0 d.screen d.coordinates) := by
  unfold clear
  exact screen_onScreen _ _

end Display

variable {P : ρ → Prop}

theorem Screen.Tame.paint (hP : Screen.Tame P) (colour : Int) (places : List (Int × Int)) {s : ρ}
    (hs : P s) : P (left (Screen.paint colour s places)) := by
  induction places generalizing s with
  | nil => exact hs
  | cons place rest ih =>
    have hpixel := hP.pixel s place.1 place.2 colour hs
    unfold Screen.paint
    cases hset : Screen.setPixel s place.1 place.2 colour with
    | error e t =>
      rw [hset] at hpixel
      exact hpixel
    | ok u t =>
      rw [hset] at hpixel
      exact ih hpixel

theorem Screen.Tame.flipEach (hP : Screen.Tame P) {d : Display ρ} (hd : P d.screen)
    (places : List (Int × Int)) : P (left (d.flipEach places)).screen := by
  induction places generalizing d with
  | nil => exact hd
  | cons place rest ih =>
    have hflip : P (left (d.flip place.1 place.2)).screen := by
      rw [Display.screen_flip]
      exact hP.pixel _ _ _ _ hd
    unfold Display.flipEach
    cases hone : d.flip place.1 place.2 with
    | error e d' =>
      rw [hone] at hflip
      exact hflip
    | ok was d' =>
      rw [hone] at hflip
      have hrest := ih hflip
      change P (left (d'.flipEach rest)).screen at hrest
      dsimp only
      cases hmore : d'.flipEach rest with
      | error e d'' =>
        rw [hmore] at hrest
        exact hrest
      | ok others d'' =>
        rw [hmore] at hrest
        exact hrest

theorem Screen.Tame.clear (hP : Screen.Tame P) {d : Display ρ} (hd : P d.screen) :
    P (left d.clear).screen := by
  rw [Display.screen_clear]
  exact hP.paint 0 _ hd

end

/-! ## The screen of a machine -/

namespace Machine

section

variable {ρ : Type}

end

variable {ρ : Type} [Screen ρ] {P : ρ → Prop} {m : Machine ρ}

end Machine

end Chip8
