import Chip8.Display
import Chip8.Screen.Grid

/-!
# Displays on a grid

A display on a grid of just its measures never fails: flipping pixels and clearing are plain
functions then, `flipped`, `flippedEach` and `darkened`.  Each of them keeps the grid's bytes equal
to the picture.
-/

namespace Chip8

def pixelByte (lit : Bool) : UInt8 := if lit then 1 else 0

def fill {α : Type} (value : α) (cells : List α) : List Nat → List α
  | [] => cells
  | i :: rest => fill value (cells.set i value) rest

theorem length_fill {α : Type} (value : α) (cells : List α) (places : List Nat) :
    (fill value cells places).length = cells.length := by
  induction places generalizing cells with
  | nil => rfl
  | cons i rest ih => rw [fill, ih, List.length_set]

theorem getElem?_fill {α : Type} (value : α) (cells : List α) (places : List Nat) {i : Nat}
    (hi : i < cells.length) :
    (fill value cells places)[i]? = if i ∈ places then some value else cells[i]? := by
  induction places generalizing cells with
  | nil => simp [fill]
  | cons j rest ih =>
    rw [fill, ih _ (by rwa [List.length_set]), List.getElem?_set]
    by_cases hrest : i ∈ rest
    · rw [if_pos hrest, if_pos (List.mem_cons_of_mem _ hrest)]
    · by_cases hj : j = i
      · rw [if_neg hrest, if_pos hj, if_pos (by omega), if_pos (by simp [hj])]
      · rw [if_neg hrest, if_neg hj, if_neg (by simp [hrest, Ne.symm hj])]

theorem fill_eq_replicate {α : Type} (value : α) {cells : List α} {places : List Nat}
    (h : ∀ i < cells.length, i ∈ places) :
    fill value cells places = List.replicate cells.length value := by
  apply List.ext_getElem?
  intro i
  by_cases hi : i < cells.length
  · rw [getElem?_fill value cells places hi, if_pos (h i hi), List.getElem?_replicate, if_pos hi]
  · rw [List.getElem?_eq_none, List.getElem?_eq_none]
    · rw [List.length_replicate]
      omega
    · rw [length_fill]
      omega

namespace Grid

def cell (g : Grid) (place : Int × Int) : Int := place.2 * g.width + place.1

def Holds (g : Grid) (place : Int × Int) : Prop :=
  0 ≤ g.cell place ∧ g.cell place < g.pixels.size

def painted (g : Grid) (place : Int × Int) (byte : UInt8) : Grid :=
  { g with pixels := g.pixels.setIfInBounds (g.cell place).toNat byte }

def paintedEach (g : Grid) (byte : UInt8) : List (Int × Int) → Grid
  | [] => g
  | place :: rest => (g.painted place byte).paintedEach byte rest

@[simp] theorem size_painted (g : Grid) (place : Int × Int) (byte : UInt8) :
    (g.painted place byte).pixels.size = g.pixels.size := by
  simp only [painted, Array.size_setIfInBounds]

theorem holds_painted {g : Grid} {place other : Int × Int} {byte : UInt8} :
    (g.painted place byte).Holds other ↔ g.Holds other := by
  unfold Holds
  rw [size_painted]
  rfl

theorem setPixel_eq {g : Grid} (hsize : Memory.Countable g.pixels.size)
    {x y : Int} (h : g.Holds (x, y)) (byte : UInt8) :
    Screen.setPixel g x y byte.toNat = .ok () (g.painted (x, y) byte) := by
  obtain ⟨h₀, h⟩ := h
  simp only [cell] at h₀ h
  have hcount : Memory.Countable (y * g.width + x) := by
    unfold Memory.Countable at hsize ⊢
    omega
  have hbyte : (0 : Int) ≤ byte.toNat ∧ (byte.toNat : Int) < 256 := by
    have := byte.toNat_lt
    omega
  have hcell : Memory.cell? g.pixels.size (y * g.width + x)
      = some ⟨(y * g.width + x).toNat, by omega⟩ := by
    unfold Memory.cell?
    rw [dif_pos ⟨h₀, h⟩]
  have hi : (y * g.width + x).toNat < g.pixels.size := by omega
  have hset : g.pixels.setIfInBounds (y * g.width + x).toNat byte
      = g.pixels.set (y * g.width + x).toNat byte hi := by
    rw [Array.setIfInBounds, dif_pos hi]
  change setPixel g x y byte.toNat = _
  unfold setPixel painted
  rw [if_neg (not_not_intro hcount), if_neg (not_not_intro hbyte), hcell]
  simp only [cell, hset, Int.toNat_natCast, UInt8.ofNat_toNat]

theorem paint_eq {g : Grid} (hsize : Memory.Countable g.pixels.size) (byte : UInt8)
    {places : List (Int × Int)} (h : ∀ p ∈ places, g.Holds p) :
    Screen.paint byte.toNat g places = .ok () (g.paintedEach byte places) := by
  induction places generalizing g with
  | nil => rfl
  | cons place rest ih =>
    obtain ⟨x, y⟩ := place
    rw [Screen.paint, setPixel_eq hsize (h (x, y) List.mem_cons_self)]
    apply ih
    · rwa [size_painted]
    · exact fun p hp => holds_painted.2 (h p (List.mem_cons_of_mem _ hp))

theorem toList_paintedEach (g : Grid) (byte : UInt8) (places : List (Int × Int)) :
    (g.paintedEach byte places).pixels.toList =
      fill byte g.pixels.toList (places.map fun p => (g.cell p).toNat) := by
  induction places generalizing g with
  | nil => rfl
  | cons place rest ih =>
    have hcell : (g.painted place byte).cell = g.cell := rfl
    rw [paintedEach, ih, hcell, painted, Array.toList_setIfInBounds]
    rfl

theorem paintedEach_eq (g : Grid) (byte : UInt8) (places : List (Int × Int)) :
    g.paintedEach byte places = { g with pixels := (g.paintedEach byte places).pixels } := by
  induction places generalizing g with
  | nil => rfl
  | cons place rest ih => rw [paintedEach, ih]; rfl

end Grid

namespace Display

/-! ## Coordinates -/

section

variable {ρ : Type} {d : Display ρ}

theorem exists_of_mem_coordinates {p : Int × Int} (hp : p ∈ d.coordinates) :
    ∃ x y : Nat, p = ((x : Int), (y : Int)) ∧ y * d.width + x < d.width * d.height := by
  simp only [coordinates, List.mem_flatMap, List.mem_map, List.mem_range] at hp
  obtain ⟨y, hy, x, hx, rfl⟩ := hp
  refine ⟨x, y, rfl, ?_⟩
  calc
    y * d.width + x < y * d.width + d.width := by omega
    _ = (y + 1) * d.width := by rw [Nat.add_mul, Nat.one_mul]
    _ ≤ d.height * d.width := Nat.mul_le_mul_right _ hy
    _ = d.width * d.height := Nat.mul_comm _ _

theorem exists_mem_coordinates {i : Nat} (hi : i < d.width * d.height) :
    ∃ x y : Nat, ((x : Int), (y : Int)) ∈ d.coordinates ∧ y * d.width + x = i := by
  have hy : i / d.width < d.height := by
    rw [Nat.div_lt_iff_lt_mul d.width_pos, Nat.mul_comm]
    exact hi
  have hx : i % d.width < d.width := Nat.mod_lt i d.width_pos
  refine ⟨i % d.width, i / d.width, ?_, ?_⟩
  · simp only [coordinates, List.mem_flatMap, List.mem_map, List.mem_range]
    exact ⟨i / d.width, hy, i % d.width, hx, rfl⟩
  · rw [Nat.mul_comm]
    exact Nat.div_add_mod i d.width

end

/-! ## Displays on a grid -/

/-- The grid has the measures of the display, whose pixels can be counted. -/
structure Fits (d : Display Grid) : Prop where
  width : d.screen.width = d.width
  height : d.screen.height = d.height
  size : d.screen.pixels.size = d.width * d.height
  bound : Memory.Countable d.screen.pixels.size

/-- The grid shows the picture: one byte a pixel. -/
def Mirrors (d : Display Grid) : Prop := d.screen.pixels.toList = d.snapshot

def flipped (d : Display Grid) (x y : Int) : Display Grid :=
  { d with
    screen := d.screen.painted (d.column x, d.row y) (pixelByte !d.isLit x y)
    lit := d.lit.set (d.place x y) (!d.isLit x y)
    changed := true }

def flippedEach (d : Display Grid) : List (Int × Int) → Display Grid
  | [] => d
  | (x, y) :: rest => (d.flipped x y).flippedEach rest

/-- Whether any of the pixels is lit when its turn to be flipped comes. -/
def collides (d : Display Grid) : List (Int × Int) → Bool
  | [] => false
  | (x, y) :: rest => d.isLit x y || (d.flipped x y).collides rest

def darkened (d : Display Grid) : Display Grid :=
  { d with
    screen := { d.screen with pixels := Array.replicate (d.width * d.height) 0 }
    lit := Vector.replicate _ false
    changed := true }

variable {d : Display Grid}

theorem Fits.cell_eq (h : d.Fits) (x y : Nat) :
    d.screen.cell ((x : Int), (y : Int)) = (y * d.width + x : Nat) := by
  simp only [Grid.cell, h.width]
  omega

theorem Fits.holds (h : d.Fits) {x y : Nat} (hxy : y * d.width + x < d.width * d.height) :
    d.screen.Holds ((x : Int), (y : Int)) := by
  unfold Grid.Holds
  rw [h.cell_eq, h.size]
  omega

/-! ## Flipping pixels -/

theorem flip_eq (h : d.Fits) (x y : Int) : d.flip x y = .ok (d.isLit x y) (d.flipped x y) := by
  have hset := Grid.setPixel_eq h.bound (h.holds (d.place_lt x y)) (pixelByte !d.isLit x y)
  have hcolour : ((pixelByte !d.isLit x y).toNat : Int) = if d.isLit x y then 0 else 1 := by
    cases d.isLit x y <;> rfl
  rw [hcolour] at hset
  unfold flip onScreen
  simp only [hset]
  rfl

theorem Fits.flipped (h : d.Fits) (x y : Int) : (d.flipped x y).Fits where
  width := h.width
  height := h.height
  size := (Grid.size_painted _ _ _).trans h.size
  bound := by
    have := h.bound
    simp only [Display.flipped, Grid.size_painted]
    exact this

theorem mirrors_flipped (h : d.Fits) (hm : d.Mirrors) (x y : Int) : (d.flipped x y).Mirrors := by
  unfold Mirrors snapshot at hm ⊢
  have hcell : (d.screen.cell ((d.column x : Int), (d.row y : Int))).toNat = d.place x y := by
    rw [h.cell_eq, Int.toNat_natCast]
    rfl
  simp only [flipped, Grid.painted, hcell, Array.toList_setIfInBounds, hm, Vector.toList_set,
    List.map_set]
  rfl

theorem flipEach_eq (h : d.Fits) (places : List (Int × Int)) :
    d.flipEach places = .ok (d.collides places) (d.flippedEach places) := by
  induction places generalizing d with
  | nil => rfl
  | cons place rest ih =>
    obtain ⟨x, y⟩ := place
    rw [flipEach, flip_eq h]
    simp only [ih (h.flipped x y)]
    rfl

theorem Fits.flippedEach (h : d.Fits) (places : List (Int × Int)) :
    (d.flippedEach places).Fits := by
  induction places generalizing d with
  | nil => exact h
  | cons place rest ih => exact ih (h.flipped place.1 place.2)

theorem mirrors_flippedEach (h : d.Fits) (hm : d.Mirrors) (places : List (Int × Int)) :
    (d.flippedEach places).Mirrors := by
  induction places generalizing d with
  | nil => exact hm
  | cons place rest ih =>
    have hnext := mirrors_flipped h hm place.1 place.2
    exact ih (h.flipped place.1 place.2) hnext

/-! ## Clearing -/

theorem holds_of_mem_coordinates (h : d.Fits) {p : Int × Int} (hp : p ∈ d.coordinates) :
    d.screen.Holds p := by
  obtain ⟨x, y, rfl, hplace⟩ := exists_of_mem_coordinates hp
  exact h.holds hplace

theorem pixels_paintedEach_coordinates (h : d.Fits) :
    (d.screen.paintedEach 0 d.coordinates).pixels = Array.replicate (d.width * d.height) 0 := by
  have hlength : d.screen.pixels.toList.length = d.width * d.height := by
    rw [Array.length_toList, h.size]
  have hall : ∀ i < d.screen.pixels.toList.length,
      i ∈ d.coordinates.map fun p => (d.screen.cell p).toNat := by
    intro i hi
    rw [hlength] at hi
    obtain ⟨x, y, hmem, hplace⟩ := exists_mem_coordinates hi
    refine List.mem_map.2 ⟨_, hmem, ?_⟩
    rw [h.cell_eq, Int.toNat_natCast, hplace]
  apply Array.toList_inj.1
  rw [Grid.toList_paintedEach, fill_eq_replicate _ hall, hlength, Array.toList_replicate]

theorem clear_eq (h : d.Fits) : d.clear = .ok () d.darkened := by
  have hpaint : Screen.paint 0 d.screen d.coordinates
      = .ok () (d.screen.paintedEach 0 d.coordinates) :=
    Grid.paint_eq h.bound 0 fun p hp => holds_of_mem_coordinates h hp
  unfold clear onScreen
  simp only [hpaint]
  rw [Grid.paintedEach_eq, pixels_paintedEach_coordinates h]
  rfl

theorem Fits.darkened (h : d.Fits) : d.darkened.Fits where
  width := h.width
  height := h.height
  size := by simp only [Display.darkened, Array.size_replicate]
  bound := by
    have := h.bound
    rw [h.size] at this
    simp only [Display.darkened, Array.size_replicate]
    exact this

theorem mirrors_darkened (d : Display Grid) : d.darkened.Mirrors := by
  unfold Mirrors snapshot
  simp [darkened]

end Display

end Chip8
