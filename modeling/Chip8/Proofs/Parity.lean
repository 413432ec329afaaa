import Chip8.Proofs.FirstState
import Chip8.Proofs.Picture

/-!
# Pictures on a grid

On a grid nothing that a display is asked fails, and the grid's bytes are those of the picture
whenever it is looked at.  What is lit is told by the flips since the display was last cleared.
-/

namespace Chip8.Display

variable {d : Display Grid}

/-- On a grid that fits the display nothing fails, and it goes on showing the picture. -/
theorem serve_mirrors (h : d.Fits) (hm : d.Mirrors) (r : Request) :
    (d.serve r).result = .ok (d.answer r) ∧ (d.serve r).display.Fits ∧
      (d.serve r).display.Mirrors := by
  cases r with
  | flip x y =>
    unfold serve
    dsimp only
    rw [flip_eq h]
    exact ⟨rfl, h.flipped x y, mirrors_flipped h hm x y⟩
  | clear =>
    unfold serve
    dsimp only
    rw [clear_eq h]
    exact ⟨rfl, h.darkened, mirrors_darkened d⟩
  | refresh => exact ⟨rfl, { h with }, hm⟩

theorem after_mirrors (h : d.Fits) (hm : d.Mirrors) (rs : List Request) :
    (d.after rs).Fits ∧ (d.after rs).Mirrors := by
  induction rs generalizing d with
  | nil => exact ⟨h, hm⟩
  | cons r rest ih =>
    obtain ⟨-, hfits, hmirrors⟩ := serve_mirrors h hm r
    exact ih hfits hmirrors

/-! ## The picture that a display is built with -/

theorem getElem?_snapshot {ρ : Type} (d : Display ρ) (x y : Int) :
    d.snapshot[d.row y * d.width + d.column x]? = some (pixelByte (d.isLit x y)) := by
  have hplace := d.place_lt x y
  rw [snapshot, List.getElem?_map, Vector.getElem?_toList, Vector.getElem?_eq_getElem hplace]
  rfl

theorem Mirrors.getElem?_pixels (hm : d.Mirrors) {a b : Nat} (ha : a < d.width)
    (hb : b < d.height) : d.screen.pixels[b * d.width + a]? = some (pixelByte (d.isLit a b)) := by
  have hbyte := getElem?_snapshot d a b
  rwa [column_of_lt ha, row_of_lt hb, ← hm, Array.getElem?_toList] at hbyte

theorem isLit_built {scale : HostValue} {width height : Int} (h : 0 < width ∧ 0 < height)
    (x y : Int) : (built scale width height h).isLit x y = false :=
  isLit_of_replicate rfl x y

theorem mirrors_built {scale : HostValue} {width height : Int} (h : 0 < width ∧ 0 < height) :
    (built scale width height h).Mirrors := by
  have harea : (width * height).toNat = width.toNat * height.toNat :=
    Int.toNat_mul (Int.le_of_lt h.1) (Int.le_of_lt h.2)
  unfold Mirrors snapshot
  simp [built, harea]

theorem exists_mirroring {width height : Int} (h : 0 < width ∧ 0 < height)
    (hsize : Memory.Countable (width * height)) :
    ∃ d : Display Grid, d.width = width.toNat ∧ d.height = height.toNat ∧
      (∀ x y, d.isLit x y = false) ∧ d.Fits ∧ d.Mirrors := by
  exact ⟨built .null width height h, rfl, rfl, isLit_built h, fits_built h hsize, mirrors_built h⟩

/-- A display is built on a grid for any measures that the host has room for.  From then on nothing
that it is asked fails.  A pixel is lit if it was flipped an odd number of times since the display
was last cleared, which is also what a flip answers; any coordinates look up the pixel that they
wrap to; the grid shows the picture; and the display is marked as changed just if there is something
to draw that no refresh has drawn yet. -/
theorem pixel_lit_iff_odd_flips (room : Memory.Room) :
    (∀ (scale : HostValue) (width height : Int),
      (∃ d calls, new room (Grid.new scale) width height = .ok (d, calls)) ↔
        (0 < width ∧ 0 < height) ∧ width * height ≤ room.bytes) ∧
    ∀ (scale : HostValue) (width height : Int) (d : Display Grid) (calls : List HostCall),
      new room (Grid.new scale) width height = .ok (d, calls) →
      (d.width : Int) = width ∧ (d.height : Int) = height ∧
      ∀ rs : List Request,
        (∀ x y : Int, (d.after rs).isLit x y = true ↔ Odd (flipCount d.width d.height rs x y)) ∧
        (∀ x y : Int, (d.after rs).isLit x y = (d.after rs).isLit (x % width) (y % height)) ∧
        (∀ x y : Int,
          (d.after rs).snapshot[(y % height).toNat * d.width + (x % width).toNat]? =
            some (pixelByte ((d.after rs).isLit x y))) ∧
        (∀ x y, ((d.after rs).serve (.flip x y)).result = .ok (some ((d.after rs).isLit x y))) ∧
        ((d.after rs).serve .clear).result = .ok none ∧
        ((d.after rs).serve .refresh).result = .ok none ∧
        (d.after rs).screen.pixels.toList = (d.after rs).snapshot ∧
        ((d.after rs).changed = true ↔ Due rs) := by
  constructor
  · exact fun scale width height => exists_new_iff scale
  · intro scale width height d calls hnew
    obtain ⟨hpos, hd⟩ := eq_built_of_new hnew
    have hwidth : (d.width : Int) = width := by
      rw [hd]
      exact Int.toNat_of_nonneg (Int.le_of_lt hpos.1)
    have hheight : (d.height : Int) = height := by
      rw [hd]
      exact Int.toNat_of_nonneg (Int.le_of_lt hpos.2)
    have hmirrors : d.Mirrors := by
      rw [hd]
      exact mirrors_built hpos
    have hdark : ∀ x y, d.isLit x y = false := by
      rw [hd]
      exact isLit_built hpos
    have hchanged : d.changed = true := by
      rw [hd]
      rfl
    refine ⟨hwidth, hheight, ?_⟩
    intro rs
    have hrun := after_mirrors (fits_of_new hnew) hmirrors
    have hok : ∀ rs r, ((d.after rs).serve r).result = .ok ((d.after rs).answer r) :=
      fun rs r => (serve_mirrors (hrun rs).1 (hrun rs).2 r).1
    have hdue := changed_after hchanged (fun rs r => ⟨_, hok rs r⟩) rs
    refine ⟨isLit_after hdark rs, ?_, ?_, ?_, hok rs .clear, hok rs .refresh, (hrun rs).2, hdue⟩
    · intro x y
      rw [← isLit_emod (d.after rs) x y, width_after, height_after, hwidth, hheight]
    · intro x y
      have hsnapshot := getElem?_snapshot (d.after rs) x y
      rwa [row, column, width_after, height_after, hwidth, hheight] at hsnapshot
    · exact fun x y => hok rs (.flip x y)

/-- Flips past the edges of a usual display: one lights the pixel in the last column of the second
row, a second puts it out again. -/
theorem pixel_lit_by_flip_past_edges :
    ∃ d calls, new .gigabyte (Grid.new .null) 64 32 = .ok (d, calls) ∧
      (d.after [.flip (-1) 33]).isLit 63 1 = true ∧
      (d.after [.flip (-1) 33]).snapshot[1 * d.width + 63]? = some 1 ∧
      ¬(d.after [.flip (-1) 33, .refresh, .flip 127 (-31)]).isLit 63 1 = true ∧
      (d.after [.flip (-1) 33, .refresh, .flip 127 (-31)]).changed = true := by
  obtain ⟨hbuilt, hall⟩ := pixel_lit_iff_odd_flips .gigabyte
  obtain ⟨d, calls, hnew⟩ := (hbuilt .null 64 32).2 (by decide)
  obtain ⟨hwidth, hheight, hrun⟩ := hall .null 64 32 d calls hnew
  have hw : d.width = 64 := Int.ofNat.inj hwidth
  have hh : d.height = 32 := Int.ofNat.inj hheight
  have hone : flipCount 64 32 [.flip (-1) 33] 63 1 = 1 := by decide
  have htwo : flipCount 64 32 [.flip (-1) 33, .refresh, .flip 127 (-31)] 63 1 = 2 := by decide
  obtain ⟨hlit, -, hbyte, -⟩ := hrun [.flip (-1) 33]
  obtain ⟨hdark, -, -, -, -, -, -, hdue⟩ := hrun [.flip (-1) 33, .refresh, .flip 127 (-31)]
  have hon : (d.after [.flip (-1) 33]).isLit 63 1 = true := by
    rw [hlit, hw, hh, hone]
    exact odd_one
  refine ⟨d, calls, hnew, hon, ?_, ?_, ?_⟩
  · have hpixel := hbyte 63 1
    rw [hon] at hpixel
    exact hpixel
  · rw [hdark, hw, hh, htwo]
    decide
  · exact hdue.2 ((due_concat [.flip (-1) 33, .refresh] _).2 rfl)

end Chip8.Display
