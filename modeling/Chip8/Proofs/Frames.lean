import Chip8.Proofs.Canvas
import Chip8.Proofs.FirstState

/-!
# What a window was given to draw

A window is given a frame only if something was drawn since the last refresh.  Still the last frame
that it was given shows the picture after every refresh.
-/

namespace Chip8

structure Frame where
  width : Int
  height : Int
  pixels : Array UInt8

def HostCall.frame? : HostCall → Option Frame
  | .frame width height pixels => some ⟨width, height, pixels⟩
  | _ => none

def frames (calls : List HostCall) : List Frame := calls.filterMap HostCall.frame?

def Palette.entry (p : Palette) (lit : Bool) : Int := if lit then p.foreground else p.background

/-- A frame shows the picture of a display in the colours of a palette: row by row, each pixel as
three bytes that spell its colour. -/
structure Frame.Depicts {ρ : Type} (f : Frame) (p : Palette) (d : Display ρ) : Prop where
  width : f.width = d.width
  height : f.height = d.height
  size : f.pixels.size = 3 * (d.width * d.height)
  pixel : ∀ x y : Nat, x < d.width → y < d.height →
    ∃ c : Rgb, c.value = p.entry (d.isLit x y) ∧
      f.pixels[3 * (y * d.width + x)]? = some c.red ∧
      f.pixels[3 * (y * d.width + x) + 1]? = some c.green ∧
      f.pixels[3 * (y * d.width + x) + 2]? = some c.blue

theorem getLast?_frames_append (calls more : List HostCall) :
    (frames (calls ++ more)).getLast? = (frames more).getLast?.or (frames calls).getLast? := by
  rw [frames, List.filterMap_append, List.getLast?_append]
  rfl

theorem depicts_image {ρ : Type} (d : Display ρ) {p : Palette} {colour : Bool → Rgb}
    (hcolour : ∀ lit, (colour lit).value = p.entry lit) :
    Frame.Depicts ⟨d.width, d.height, d.image colour⟩ p d where
  width := rfl
  height := rfl
  size := by rw [Display.image, Rgb.size_encode, Display.length_map_lit]
  pixel := by
    intro x y hx hy
    have hbyte := fun k (hk : k < 3) => d.getElem?_image colour hx hy hk
    exact ⟨_, hcolour _, hbyte 0 (by decide), hbyte 1 (by decide), hbyte 2 (by decide)⟩

/-! ## Opening -/

namespace Window

theorem opening_nil {scale : HostValue} (hscale : (width? scale).isSome = true) :
    ∃ calls, opening scale [] = .done [] calls := by
  obtain ⟨width, hwidth⟩ := Option.isSome_iff_exists.1 hscale
  unfold opening
  rw [HostCall.ask_nil, Reply.done_andThen, hwidth]
  dsimp only
  rw [HostCall.ask_nil]
  exact ⟨_, rfl⟩

theorem exists_new_eq {scale palette : HostValue} {p : Palette}
    (hp : Palette.ofValue palette = .ok p) (hback : 0 ≤ p.background ∧ p.background < 0x1000000)
    (hfore : 0 ≤ p.foreground ∧ p.foreground < 0x1000000) (hscale : (width? scale).isSome = true) :
    ∃ w calls, new [] scale palette = (.ok w, calls) := by
  obtain ⟨background, hback⟩ := Rgb.isSome_ofColour? hback
  obtain ⟨foreground, hfore⟩ := Rgb.isSome_ofColour? hfore
  obtain ⟨calls, hopening⟩ := opening_nil hscale
  unfold new
  rw [hp]
  dsimp only
  rw [hback, hfore, hopening]
  exact ⟨_, _, rfl⟩

theorem of_new {answers : Answers} {scale palette : HostValue} {p : Palette} {w : Window}
    {calls : List HostCall} (hp : Palette.ofValue palette = .ok p)
    (h : new answers scale palette = (.ok w, calls)) :
    (∀ lit, (w.colour lit).value = p.entry lit) ∧ w.answers = (opening scale answers).state := by
  unfold new at h
  rw [hp] at h
  dsimp only at h
  split at h
  · rename_i background foreground hback hfore
    split at h
    · cases h
    · cases h
      refine ⟨?_, rfl⟩
      intro lit
      cases lit with
      | false => exact Rgb.value_of_ofColour? hback
      | true => exact Rgb.value_of_ofColour? hfore
  · cases h

theorem state_opening_nil (scale : HostValue) : (opening scale []).state = [] := by
  unfold opening
  rw [HostCall.ask_nil, Reply.done_andThen]
  dsimp only
  split
  · rfl
  · rw [HostCall.ask_nil, Reply.state_done]

end Window

namespace Display

def opened (w : Window) (width height : Int) (h : 0 < width ∧ 0 < height) : Display Window where
  screen :=
    { w with
      width, height, title := title 0 0
      buffer := Rgb.encode (List.replicate (width * height).toNat w.background) }
  width := width.toNat
  height := height.toNat
  width_pos := toNat_width_pos h
  height_pos := toNat_height_pos h
  lit := Vector.replicate _ false
  changed := true

theorem showing_opened (v w : Window) {width height : Int} (h : 0 < width ∧ 0 < height) :
    v.showing (opened w width height h) =
      { v with
        width, height
        buffer := Rgb.encode (List.replicate (width * height).toNat v.background) } := by
  have hwidth : (width.toNat : Int) = width := Int.toNat_of_nonneg (Int.le_of_lt h.1)
  have hheight : (height.toNat : Int) = height := Int.toNat_of_nonneg (Int.le_of_lt h.2)
  have harea : (width * height).toNat = width.toNat * height.toNat :=
    Int.toNat_mul (Int.le_of_lt h.1) (Int.le_of_lt h.2)
  simp only [opened, Window.showing, image, Vector.toList_replicate, List.map_replicate, hwidth,
    hheight, harea]
  rfl

theorem exists_showing {width height : Int} (h : 0 < width ∧ 0 < height) :
    ∃ (w : Window) (d : Display Window), d.width = width.toNat ∧ d.height = height.toNat ∧
      (∀ x y, d.isLit x y = false) ∧ d.screen = w.showing d := by
  let w : Window := ⟨Window.standardScale, ⟨0, 0, 0⟩, ⟨0xFF, 0x80, 0⟩, 0, 0, "", #[], []⟩
  refine ⟨{ w with title := title 0 0 }, opened w width height h, rfl, rfl, ?_, ?_⟩
  · exact isLit_of_replicate rfl
  · rw [showing_opened]
    rfl

theorem setResolution_eq {w : Window} (hobeyed : w.answers = []) {room : Memory.Room}
    {width height : Int} (h : 0 < width ∧ 0 < height)
    (hroom : 3 * (width * height) ≤ room.bytes) :
    ∃ calls, Screen.setResolution room w width height =
      .done (w.showing (opened w width height h)) calls := by
  have harea : 0 < width * height := Int.mul_pos h.1 h.2
  have hcheck : Window.checkArea room (width * height) = .ok () := by
    have hcount : Memory.Countable (width * height) := by
      have hbound := room.countable
      unfold Memory.blockOverhead at hbound
      unfold Memory.Countable
      omega
    rw [Window.checkArea, if_pos hcount, Int.max_eq_left (Int.le_of_lt harea)]
    exact Memory.checkSize_eq_ok_iff.2 ⟨by omega, hroom⟩
  have hrefresh := refresh_showing (w := w)
    (d := { opened w width height h with screen := w.showing (opened w width height h) })
    hobeyed rfl
  change ∃ calls, Window.setResolution room w width height = _
  unfold Window.setResolution
  dsimp only
  rw [hcheck]
  dsimp only
  rw [if_pos ⟨Int.ne_of_gt h.1, Int.ne_of_gt h.2⟩, ← Rgb.encode_replicate,
    ← showing_opened w w h]
  exact ⟨_, hrefresh⟩

theorem setTitle_eq {w : Window} (hobeyed : w.answers = []) (text : String) :
    Screen.setTitle w text =
      .done { w with title := text } [.title text, .caption text] := by
  change Window.setTitle w text = _
  unfold Window.setTitle
  rw [Reply.done_andThen, Window.request_eq hobeyed]
  rfl

theorem new_opened {w : Window} (hobeyed : w.answers = []) {room : Memory.Room}
    {width height : Int} (h : 0 < width ∧ 0 < height)
    (hroom : 3 * (width * height) ≤ room.bytes) :
    ∃ calls, new room w width height = .ok (opened w width height h, calls) := by
  have harea : 0 < width * height := Int.mul_pos h.1 h.2
  have hcheck : Memory.checkSize room (width * height) = .ok () :=
    Memory.checkSize_eq_ok_iff.2 ⟨by omega, by omega⟩
  obtain ⟨calls, hset⟩ := setResolution_eq hobeyed h hroom
  refine ⟨calls ++ [.title (title 0 0), .caption (title 0 0)], ?_⟩
  unfold new
  rw [dif_pos h, hcheck]
  dsimp only
  rw [hset, showing_opened w w h]
  dsimp only [Reply.done, report]
  rw [setTitle_eq (by exact hobeyed)]
  rfl

theorem room_of_new {w : Window} {room : Memory.Room} {width height : Int} {d : Display Window}
    {calls : List HostCall} (hnew : new room w width height = .ok (d, calls)) :
    (0 < width ∧ 0 < height) ∧ 3 * (width * height) ≤ room.bytes := by
  unfold new at hnew
  split at hnew
  · rename_i hpos
    refine ⟨hpos, ?_⟩
    have harea : 0 < width * height := Int.mul_pos hpos.1 hpos.2
    cases hcheck : Window.checkArea room (width * height) with
    | error e =>
      have hset : (Screen.setResolution room w width height).failure = some (.memory e) := by
        change (Window.setResolution room w width height).failure = _
        unfold Window.setResolution
        dsimp only
        rw [hcheck]
      cases hcells : Memory.checkSize room (width * height) with
      | error e =>
        rw [hcells] at hnew
        cases hnew
      | ok u =>
        rw [hcells] at hnew
        dsimp only at hnew
        rw [hset] at hnew
        cases hnew
    | ok u =>
      unfold Window.checkArea at hcheck
      split at hcheck
      · rw [Int.max_eq_left (Int.le_of_lt harea)] at hcheck
        exact (Memory.checkSize_eq_ok_iff.1 hcheck).2
      · cases hcheck
  · cases hnew

/-- A host that takes every call has a display on a window just if it has room for three bytes a
pixel. -/
theorem exists_new_window_iff {w : Window} (hobeyed : w.answers = []) {room : Memory.Room}
    {width height : Int} :
    (∃ d calls, new room w width height = .ok (d, calls)) ↔
      (0 < width ∧ 0 < height) ∧ 3 * (width * height) ≤ room.bytes := by
  constructor
  · rintro ⟨d, calls, hnew⟩
    exact room_of_new hnew
  · rintro ⟨hpos, hroom⟩
    obtain ⟨calls, hnew⟩ := new_opened hobeyed hpos hroom
    exact ⟨_, calls, hnew⟩

theorem eq_opened_of_new {w : Window} (hobeyed : w.answers = []) {room : Memory.Room}
    {width height : Int} {d : Display Window} {calls : List HostCall}
    (hnew : new room w width height = .ok (d, calls)) : ∃ h, d = opened w width height h := by
  obtain ⟨hpos, hroom⟩ := room_of_new hnew
  obtain ⟨calls', hopened⟩ := new_opened hobeyed hpos hroom
  rw [hopened] at hnew
  cases hnew
  exact ⟨hpos, rfl⟩

theorem measures_of_new {w : Window} (hobeyed : w.answers = []) {room : Memory.Room}
    {width height : Int} {d : Display Window} {calls : List HostCall}
    (hnew : new room w width height = .ok (d, calls)) :
    (d.width : Int) = width ∧ (d.height : Int) = height := by
  obtain ⟨hpos, rfl⟩ := eq_opened_of_new hobeyed hnew
  exact ⟨Int.toNat_of_nonneg (Int.le_of_lt hpos.1), Int.toNat_of_nonneg (Int.le_of_lt hpos.2)⟩

/-- A display is opened on a window with all of its picture still to be drawn; and the window has a
title by now, which no drawing depends on. -/
theorem exists_showing_of_new {w : Window} (hobeyed : w.answers = []) {room : Memory.Room}
    {width height : Int} {d : Display Window} {calls : List HostCall}
    (hnew : new room w width height = .ok (d, calls)) :
    d.changed = true ∧ ∃ v : Window, v.answers = [] ∧ v.colour = w.colour ∧
      d.screen = v.showing d := by
  obtain ⟨hpos, rfl⟩ := eq_opened_of_new hobeyed hnew
  refine ⟨rfl, { w with title := title 0 0 }, hobeyed, rfl, ?_⟩
  rw [showing_opened]
  rfl

/-! ## Refreshing -/

section

variable {d : Display Window} {w : Window}

theorem frames_refresh (hobeyed : w.answers = []) (h : d.screen = w.showing d) :
    frames (d.serve .refresh).calls =
      if d.changed then [⟨d.width, d.height, d.image w.colour⟩] else [] := by
  unfold serve refresh
  rw [refresh_showing hobeyed h]
  cases d.changed <;> rfl

theorem getLast?_frames_callsOf (hobeyed : w.answers = []) (h : d.screen = w.showing d)
    (hd : d.changed = true) (before : List HostCall) (rs : List Request)
    (hsame : (d.after rs).changed = false) :
    (frames (before ++ d.callsOf rs)).getLast? =
      some ⟨d.width, d.height, (d.after rs).image w.colour⟩ := by
  -- From the right: whatever draws also marks the display, so only a refresh can come last.
  induction rs using List.reverseRecOn with
  | nil => exact absurd hsame (by simp [after, hd])
  | append_singleton rs r ih =>
    have hshow := after_showing h rs fun _ => hobeyed
    rw [after_concat, changed_serve (serve_showing hshow r fun _ => hobeyed).1] at hsame
    cases r with
    | flip x y => cases hsame
    | clear => cases hsame
    | refresh =>
      have hpicture :
          (d.after (rs ++ [.refresh])).image w.colour = (d.after rs).image w.colour := by
        rw [after_concat]
        rfl
      rw [callsOf_concat, ← List.append_assoc, getLast?_frames_append, frames_refresh hobeyed hshow,
        hpicture]
      cases hchanged : (d.after rs).changed with
      | false => exact ih hchanged
      | true =>
        rw [if_pos rfl, width_after, height_after]
        rfl

end

/-- A host that takes every call opens a window in the colours of a palette, and has a display of
any measures on it as long as it has room for three bytes a pixel.  From then on nothing that the
display is asked fails, and the window's buffer is always the picture.  After a refresh so is the
last frame that the window was given, also if that refresh drew nothing; and a refresh draws just if
there is something to draw that no refresh has drawn yet. -/
theorem last_frame_is_picture :
    (∀ (scale palette : HostValue) (p : Palette),
      Palette.ofValue palette = .ok p →
      0 ≤ p.background ∧ p.background ≤ 0xFFFFFF → 0 ≤ p.foreground ∧ p.foreground ≤ 0xFFFFFF →
      (Window.width? scale).isSome = true →
        ∃ w opening, Window.new [] scale palette = (.ok w, opening)) ∧
    ∀ (scale palette : HostValue) (p : Palette) (w : Window) (opening : List HostCall),
      Palette.ofValue palette = .ok p → Window.new [] scale palette = (.ok w, opening) →
      ∀ (room : Memory.Room) (width height : Int),
        ((∃ d calls, new room w width height = .ok (d, calls)) ↔
          (0 < width ∧ 0 < height) ∧ 3 * (width * height) ≤ room.bytes) ∧
        ∀ (d : Display Window) (calls : List HostCall),
          new room w width height = .ok (d, calls) →
          (d.width : Int) = width ∧ (d.height : Int) = height ∧
          ∀ rs : List Request,
            (∀ r, ((d.after rs).serve r).result = .ok ((d.after rs).answer r)) ∧
            Frame.Depicts ⟨width, height, (d.after rs).screen.buffer⟩ p (d.after rs) ∧
            (∃ f, (frames (opening ++ calls ++ d.callsOf (rs ++ [.refresh]))).getLast? = some f ∧
              f.Depicts p (d.after (rs ++ [.refresh]))) ∧
            (frames ((d.after rs).serve .refresh).calls ≠ [] ↔ Due rs) := by
  constructor
  · intro scale palette p hp hback hfore hscale
    exact Window.exists_new_eq hp (by omega) (by omega) hscale
  · intro scale palette p w opening hp hwindow room width height
    obtain ⟨hvalue, hanswers⟩ := Window.of_new hp hwindow
    have hobeyed : w.answers = [] := hanswers.trans (Window.state_opening_nil scale)
    refine ⟨exists_new_window_iff hobeyed, ?_⟩
    intro d calls hnew
    obtain ⟨hwidth, hheight⟩ := measures_of_new hobeyed hnew
    obtain ⟨hchanged, v, hvobeyed, hv, hshow⟩ := exists_showing_of_new hobeyed hnew
    have hcolour : ∀ lit, (v.colour lit).value = p.entry lit := by
      rw [hv]
      exact hvalue
    refine ⟨hwidth, hheight, ?_⟩
    intro rs
    have hafter := after_showing hshow rs fun _ => hvobeyed
    have hok : ∀ rs r, ((d.after rs).serve r).result = .ok ((d.after rs).answer r) :=
      fun rs r =>
        (serve_showing (after_showing hshow rs fun _ => hvobeyed) r fun _ => hvobeyed).1
    refine ⟨hok rs, ?_, ?_, ?_⟩
    · have hdepicts := depicts_image (d.after rs) hcolour
      rw [width_after, height_after, hwidth, hheight] at hdepicts
      rw [hafter]
      exact hdepicts
    · have hsame : (d.after (rs ++ [.refresh])).changed = false := by
        rw [after_concat, changed_serve (hok rs .refresh)]
        rfl
      have hdepicts := depicts_image (d.after (rs ++ [.refresh])) hcolour
      rw [width_after, height_after] at hdepicts
      exact ⟨_, getLast?_frames_callsOf hvobeyed hshow hchanged _ _ hsame, hdepicts⟩
    · rw [frames_refresh hvobeyed hafter,
        ← changed_after hchanged (fun rs r => ⟨_, hok rs r⟩) rs]
      cases (d.after rs).changed <;> simp

/-- A refresh that draws nothing leaves the picture of the last one: here one of two pixels, lit by
a flip to the left of them. -/
theorem last_frame_of_two_pixels :
    ∃ w opening d calls f, Window.new [] (.int 640) (.text "000000,FF8000") = (.ok w, opening) ∧
      new .gigabyte w 2 1 = .ok (d, calls) ∧
      (frames (opening ++ calls ++
        d.callsOf [.flip (-1) 0, .refresh, .refresh])).getLast? = some f ∧
      frames ((d.after [.flip (-1) 0, .refresh]).serve .refresh).calls = [] ∧
      f.pixels.size = 6 ∧
      f.pixels[3]? = some 0xFF ∧ f.pixels[4]? = some 0x80 ∧ f.pixels[5]? = some 0x00 := by
  obtain ⟨hopen, hall⟩ := last_frame_is_picture
  have hp : Palette.ofValue (.text "000000,FF8000") = .ok ⟨0, 0xFF8000⟩ := by decide +kernel
  obtain ⟨w, opening, hwindow⟩ := hopen (.int 640) (.text "000000,FF8000") ⟨0, 0xFF8000⟩ hp
    (by decide) (by decide) rfl
  obtain ⟨hbuilt, hshown⟩ := hall _ _ _ w opening hp hwindow .gigabyte 2 1
  obtain ⟨d, calls, hnew⟩ := hbuilt.2 (by decide)
  obtain ⟨hwidth, hheight, hrun⟩ := hshown d calls hnew
  obtain ⟨-, -, ⟨f, hlast, hdepicts⟩, hdue⟩ := hrun [.flip (-1) 0, .refresh]
  have hobeyed : w.answers = [] :=
    (Window.of_new hp hwindow).2.trans (Window.state_opening_nil (.int 640))
  obtain ⟨hpos, hd⟩ := eq_opened_of_new hobeyed hnew
  have hdark : ∀ x y, d.isLit x y = false := by
    rw [hd]
    exact isLit_of_replicate rfl
  have hw : d.width = 2 := Int.ofNat.inj hwidth
  have hh : d.height = 1 := Int.ofNat.inj hheight
  -- The display after both refreshes, by what its frame tells of it.
  obtain ⟨e, he⟩ : ∃ e, e = d.after ([.flip (-1) 0, .refresh] ++ [.refresh]) := ⟨_, rfl⟩
  rw [← he] at hdepicts
  have hew : e.width = 2 := by rw [he, width_after, hw]
  have heh : e.height = 1 := by rw [he, height_after, hh]
  have hlit : e.isLit (1 : Nat) (0 : Nat) = true := by
    rw [he, isLit_after hdark, hw, hh]
    decide
  have hsize : f.pixels.size = 6 := by rw [hdepicts.size, hew, heh]
  obtain ⟨c, hvalue, hred, hgreen, hblue⟩ := hdepicts.pixel 1 0 (by omega) (by omega)
  rw [hew] at hred hgreen hblue
  rw [hlit] at hvalue
  have hspelt : 65536 * c.red.toNat + 256 * c.green.toNat + c.blue.toNat = 0xFF8000 :=
    Int.ofNat.inj hvalue
  have := c.green.toNat_lt
  have := c.blue.toNat_lt
  have hcred : c.red = 0xFF := UInt8.toNat_inj.1 (show c.red.toNat = 255 by omega)
  have hcgreen : c.green = 0x80 := UInt8.toNat_inj.1 (show c.green.toNat = 128 by omega)
  have hcblue : c.blue = 0 := UInt8.toNat_inj.1 (show c.blue.toNat = 0 by omega)
  rw [hcred] at hred
  rw [hcgreen] at hgreen
  rw [hcblue] at hblue
  refine ⟨w, opening, d, calls, f, hwindow, hnew, hlast, ?_, hsize, hred, hgreen, hblue⟩
  by_contra hdrawn
  have hidle : Due ([.flip (-1) 0] ++ [.refresh]) := hdue.1 hdrawn
  rw [due_concat] at hidle
  cases hidle

end Display

end Chip8
