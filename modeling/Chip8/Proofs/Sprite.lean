import Mathlib.Algebra.BigOperators.Group.Finset.Piecewise
import Mathlib.Algebra.BigOperators.Group.Finset.Sigma
import Mathlib.Data.Nat.Bitwise
import Mathlib.Data.Nat.ModEq
import Chip8.Proofs.Flips
import Chip8.Proofs.Footprint
import Chip8.Proofs.Frames

/-!
# Sprites

What drawing a sprite leaves.  Each bit of its rows that is set hits a pixel, and on a small display
a pixel may be hit more than once.  A pixel changes if it is hit an odd number of times; the flag
tells whether one that was lit is hit, or one is hit twice.
-/

namespace Chip8

/-! ## Turns of the pixels of a sprite -/

namespace Display

variable {ρ : Type}

theorem turns_append (d : Display ρ) (places others : List (Int × Int)) (x y : Int) :
    d.turns (places ++ others) x y = d.turns places x y + d.turns others x y := by
  unfold turns flipsAt
  rw [List.map_append, List.countP_append]

theorem turns_row (d : Display ρ) (bits : Nat → Bool) (x y a b : Int) :
    d.turns (((List.range 8).filter bits).map fun (c : Nat) => (x + c, y)) a b =
      ((Finset.range 8).filter fun c : Nat => bits c = true ∧
        (x + c) % d.width = a % d.width ∧ y % d.height = b % d.height).card := by
  unfold turns flipsAt
  rw [List.map_map, List.countP_map, List.countP_filter, List.countP_eq_length_filter]
  change _ = (List.filter _ (List.range 8)).length
  congr 2
  funext c
  simp [Request.flips, Bool.and_comm]

theorem turns_spritePlaces (d : Display ρ) (x y : Int) (row : Nat → UInt8) (n : Nat) (a b : Int) :
    d.turns (spritePlaces x y ((List.range n).map row)) a b =
      ∑ r ∈ Finset.range n, ((Finset.range 8).filter fun c : Nat =>
        (row r).toNat.testBit (7 - c) = true ∧
          (x + c) % d.width = a % d.width ∧ (y + r) % d.height = b % d.height).card := by
  -- On the number of rows, from the top: what is left starts a row below.
  induction n generalizing y row with
  | zero => rfl
  | succ n ih =>
    have hrest := ih (y + 1) (row ∘ Nat.succ)
    rw [List.range_succ_eq_map, List.map_cons, List.map_map, spritePlaces, turns_append,
      turns_row, hrest, Finset.sum_range_succ', Nat.add_comm]
    simp [add_comm, add_left_comm]

theorem turns_emod (d : Display ρ) (places : List (Int × Int)) (x y : Int) :
    d.turns places (x % d.width) (y % d.height) = d.turns places x y := by
  unfold turns
  congr 1
  funext r
  cases r <;> simp [Request.flips]

end Display

namespace Machine

variable {ρ : Type}

def spriteRow (m : Machine ρ) (row : Nat) : UInt8 :=
  m.memory.byteAt (wrapAddress (m.index + row))

/-- Whether the sprite at the index has a pixel in a row and a column; the highest bit of a row is
in the first column. -/
def SpriteBit (m : Machine ρ) (row column : Nat) : Prop :=
  (m.spriteRow row).toNat &&& (0x80 >>> column) ≠ 0

instance (m : Machine ρ) (row column : Nat) : Decidable (m.SpriteBit row column) :=
  inferInstanceAs (Decidable (_ ≠ 0))

/-- Where a row and a column of a sprite fall, as a column and a row of the display. -/
def spriteCell (m : Machine ρ) (x y : Nibble) (row column : Nat) : Nat × Nat :=
  (((m.get x).toNat % m.display.width + column) % m.display.width,
    ((m.get y).toNat % m.display.height + row) % m.display.height)

def hits (m : Machine ρ) (x y rows : Nibble) (pixel : Nat × Nat) : Nat :=
  ((Finset.range rows ×ˢ Finset.range 8).filter fun p : Nat × Nat =>
    m.SpriteBit p.1 p.2 ∧ m.spriteCell x y p.1 p.2 = pixel).card

def sprite (m : Machine ρ) (x y rows : Nibble) : List (Int × Int) :=
  spritePlaces (m.get x).toNat (m.get y).toNat ((List.range rows).map m.spriteRow)

variable {m : Machine ρ}

theorem spriteBit_iff (m : Machine ρ) (row : Nat) {column : Nat} (hcolumn : column < 8) :
    m.SpriteBit row column ↔ (m.spriteRow row).toNat.testBit (7 - column) = true := by
  have hmasks : ∀ c < 8, 0x80 >>> c = 2 ^ (7 - c) := by decide
  unfold SpriteBit
  rw [hmasks column hcolumn, Nat.and_two_pow]
  cases (m.spriteRow row).toNat.testBit (7 - column) <;> simp

theorem spriteCell_eq_iff (m : Machine ρ) (x y : Nibble) (row column : Nat) {a b : Nat}
    (ha : a < m.display.width) (hb : b < m.display.height) :
    m.spriteCell x y row column = (a, b) ↔
      (((m.get x).toNat : Int) + column) % m.display.width = (a : Int) % m.display.width ∧
        (((m.get y).toNat : Int) + row) % m.display.height = (b : Int) % m.display.height := by
  unfold spriteCell
  rw [Prod.mk.injEq, Nat.mod_add_mod, Nat.mod_add_mod]
  norm_cast
  rw [Nat.mod_eq_of_lt ha, Nat.mod_eq_of_lt hb]

theorem turns_sprite (m : Machine ρ) (x y rows : Nibble) {a b : Nat} (ha : a < m.display.width)
    (hb : b < m.display.height) :
    m.display.turns (m.sprite x y rows) a b = m.hits x y rows (a, b) := by
  unfold sprite hits
  rw [Display.turns_spritePlaces, Finset.card_filter, Finset.sum_product]
  refine Finset.sum_congr rfl fun r _ => ?_
  rw [Finset.card_filter]
  refine Finset.sum_congr rfl fun c hc => if_congr ?_ rfl rfl
  rw [spriteCell_eq_iff m x y r c ha hb, spriteBit_iff m r (Finset.mem_range.1 hc)]

/-! ## Collisions -/

/-- Whether a sprite hits a lit pixel, or any pixel twice. -/
def Collides (m : Machine ρ) (x y rows : Nibble) : Prop :=
  ∃ a b : Nat, a < m.display.width ∧ b < m.display.height ∧
    (1 ≤ m.hits x y rows (a, b) ∧ m.display.isLit a b = true ∨ 2 ≤ m.hits x y rows (a, b))

theorem exists_litAtTurn_sprite (m : Machine ρ) (x y rows : Nibble) :
    (∃ a b, m.display.LitAtTurn (m.sprite x y rows) a b) ↔ m.Collides x y rows := by
  constructor
  · rintro ⟨a, b, h⟩
    have ha := m.display.column_lt a
    have hb := m.display.row_lt b
    refine ⟨m.display.column a, m.display.row b, ha, hb, ?_⟩
    rw [← turns_sprite m x y rows ha hb, Display.natCast_column, Display.natCast_row,
      Display.turns_emod, Display.isLit_emod]
    exact h
  · rintro ⟨a, b, ha, hb, h⟩
    rw [← turns_sprite m x y rows ha hb] at h
    exact ⟨a, b, h⟩

/-! ## Displays that hold a sprite -/

def InSprite (m : Machine ρ) (x y rows : Nibble) (pixel : Nat × Nat) : Prop :=
  ∃ row < (rows : Nat), ∃ column < 8, m.SpriteBit row column ∧ m.spriteCell x y row column = pixel

theorem hits_pos_iff (m : Machine ρ) (x y rows : Nibble) (pixel : Nat × Nat) :
    0 < m.hits x y rows pixel ↔ m.InSprite x y rows pixel := by
  unfold hits InSprite
  rw [Finset.card_pos]
  constructor
  · rintro ⟨⟨row, column⟩, hp⟩
    simp only [Finset.mem_filter, Finset.mem_product, Finset.mem_range] at hp
    obtain ⟨⟨hrow, hcolumn⟩, hbit, hcell⟩ := hp
    exact ⟨row, hrow, column, hcolumn, hbit, hcell⟩
  · rintro ⟨row, hrow, column, hcolumn, hbit, hcell⟩
    refine ⟨(row, column), ?_⟩
    simp only [Finset.mem_filter, Finset.mem_product, Finset.mem_range]
    exact ⟨⟨hrow, hcolumn⟩, hbit, hcell⟩

theorem eq_of_add_mod_eq {start i j around : Nat} (hi : i < around) (hj : j < around)
    (h : (start + i) % around = (start + j) % around) : i = j :=
  (Nat.ModEq.add_left_cancel' start h).eq_of_lt_of_lt hi hj

/-- A display as wide as a byte and as high as the most rows is hit once in each pixel. -/
theorem hits_le_one (m : Machine ρ) (x y rows : Nibble) (hw : 8 ≤ m.display.width)
    (hh : 15 ≤ m.display.height) (pixel : Nat × Nat) : m.hits x y rows pixel ≤ 1 := by
  unfold hits
  rw [Finset.card_le_one]
  rintro ⟨r, c⟩ hp ⟨r', c'⟩ hp'
  simp only [Finset.mem_filter, Finset.mem_product, Finset.mem_range] at hp hp'
  obtain ⟨⟨hr, hc⟩, -, hcell⟩ := hp
  obtain ⟨⟨hr', hc'⟩, -, hcell'⟩ := hp'
  obtain ⟨hcolumn, hrow⟩ := Prod.mk.inj (hcell.trans hcell'.symm)
  rw [eq_of_add_mod_eq (by omega) (by omega) hcolumn, eq_of_add_mod_eq (by omega) (by omega) hrow]

theorem odd_hits_iff (m : Machine ρ) (x y rows : Nibble) (hw : 8 ≤ m.display.width)
    (hh : 15 ≤ m.display.height) (pixel : Nat × Nat) :
    Odd (m.hits x y rows pixel) ↔ m.InSprite x y rows pixel := by
  have hone := hits_le_one m x y rows hw hh pixel
  rw [← hits_pos_iff]
  constructor
  · rintro ⟨k, hk⟩
    omega
  · intro hpos
    rw [show m.hits x y rows pixel = 1 by omega]
    exact odd_one

theorem collides_iff (m : Machine ρ) (x y rows : Nibble) (hw : 8 ≤ m.display.width)
    (hh : 15 ≤ m.display.height) :
    m.Collides x y rows ↔ ∃ a b : Nat, a < m.display.width ∧ b < m.display.height ∧
      m.InSprite x y rows (a, b) ∧ m.display.isLit a b = true := by
  have hlit : ∀ a b : Nat,
      (1 ≤ m.hits x y rows (a, b) ∧ m.display.isLit a b = true ∨ 2 ≤ m.hits x y rows (a, b)) ↔
        m.InSprite x y rows (a, b) ∧ m.display.isLit a b = true := by
    intro a b
    have hone := hits_le_one m x y rows hw hh (a, b)
    rw [← hits_pos_iff]
    constructor
    · rintro (h | h)
      · exact h
      · omega
    · exact Or.inl
  unfold Collides
  simp only [hlit]

/-! ## Drawing -/

/-- What drawing a sprite leaves of a machine. -/
structure Drawn (m : Machine ρ) (x y rows : Nibble) (n : Machine ρ) : Prop where
  width : n.display.width = m.display.width
  height : n.display.height = m.display.height
  pixel : ∀ a b : Nat, a < m.display.width → b < m.display.height →
    n.display.isLit a b = (m.display.isLit a b ^^ decide (Odd (m.hits x y rows (a, b))))
  collision : m.Collides x y rows → n.get flagRegister = 1
  harmless : ¬m.Collides x y rows → n.get flagRegister = 0
  register : ∀ r, r ≠ flagRegister → n.get r = m.get r
  rest : n = { m with display := n.display, v := n.v }

theorem Drawn.flag_eq_one_iff {x y rows : Nibble} {n : Machine ρ} (h : m.Drawn x y rows n) :
    n.get flagRegister = 1 ↔ m.Collides x y rows := by
  refine ⟨?_, h.collision⟩
  intro hflag
  by_contra hnone
  rw [h.harmless hnone] at hflag
  cases hflag

theorem readEach_addresses (hmemory : memorySize ≤ m.memory.size) (rows : Nibble) :
    m.memory.readEach (m.addresses rows) = ((List.range rows).map m.spriteRow, none) := by
  rw [Memory.readEach_eq fun _ ha => has_of_mem_addresses hmemory ha, addresses, List.map_map]
  rfl

variable [Screen ρ]

theorem exists_drawn (hmemory : memorySize ≤ m.memory.size) (h : m.display.Unfailing)
    (x y rows : Nibble) :
    ∃ n, m.execute (.draw x y rows) = .ok () n ∧ m.Drawn x y rows n ∧
      n.display = m.display.after (Display.flipsAt (m.sprite x y rows)) := by
  obtain ⟨collided, hflips, hcollided⟩ := Display.exists_flipEach_eq h (m.sprite x y rows)
  rw [exists_litAtTurn_sprite] at hcollided
  have hexecute : m.execute (.draw x y rows) =
      .ok () ({ m with display := m.display.after (Display.flipsAt (m.sprite x y rows)) }.flag
        collided) := by
    simp only [execute, draw, readEach_addresses hmemory]
    unfold sprite at hflips
    rw [hflips]
    rfl
  refine ⟨_, hexecute, ?_, rfl⟩
  refine ⟨Display.width_after _ _, Display.height_after _ _, ?_, ?_, ?_, ?_, rfl⟩
  · intro a b ha hb
    rw [← turns_sprite m x y rows ha hb]
    exact Display.isLit_after_flipsAt m.display _ a b
  · intro hcollides
    rw [hcollided.2 hcollides, flag, get_set]
    rfl
  · intro hnone
    have hoff : collided = false := Bool.eq_false_iff.2 fun hon => hnone (hcollided.1 hon)
    rw [hoff, flag, get_set]
    rfl
  · intro r hr
    rw [get_flag_of_ne hr]
    rfl

/-! ## Screens after a sprite was drawn -/

/-- On a display of at least eight by fifteen pixels the pixels of a sprite are flipped, and the
flag tells whether one of them was lit. -/
structure DrawnOnce (m : Machine ρ) (x y rows : Nibble) (n : Machine ρ) : Prop where
  flipped : ∀ a b : Nat, a < m.display.width → b < m.display.height →
    (n.display.isLit a b ≠ m.display.isLit a b ↔ m.InSprite x y rows (a, b))
  struck : n.get flagRegister = 1 ↔ ∃ a b : Nat, a < m.display.width ∧ b < m.display.height ∧
    m.InSprite x y rows (a, b) ∧ m.display.isLit a b = true

omit [Screen ρ] in
theorem Drawn.once {x y rows : Nibble} {n : Machine ρ} (h : m.Drawn x y rows n)
    (hw : 8 ≤ m.display.width) (hh : 15 ≤ m.display.height) : m.DrawnOnce x y rows n where
  flipped := by
    intro a b ha hb
    rw [h.pixel a b ha hb, ← odd_hits_iff m x y rows hw hh]
    cases m.display.isLit a b <;> simp
  struck := by rw [h.flag_eq_one_iff, collides_iff m x y rows hw hh]

/-- A sprite is drawn on every display, on a grid or a window that shows it.  A pixel changes if it
is hit an odd number of times, both in the picture and on the screen; the flag tells whether a lit
pixel was hit or any was hit twice, and nothing else changes.  Both registers are read before the
flag is written.  A display that is large enough is hit once in each pixel of the sprite.  The
machines that a usual one can become all show their display. -/
theorem draw_flips_hit_pixels :
    (∀ (m : Machine Grid) (x y rows : Nibble), memorySize ≤ m.memory.size → m.display.Fits →
      m.display.Mirrors →
      ∃ n, m.execute (.draw x y rows) = .ok () n ∧ m.Drawn x y rows n ∧
        (8 ≤ m.display.width → 15 ≤ m.display.height → m.DrawnOnce x y rows n) ∧
        ∀ a b : Nat, a < m.display.width → b < m.display.height →
          n.display.screen.pixels[b * m.display.width + a]? =
            some (pixelByte (m.display.isLit a b ^^ decide (Odd (m.hits x y rows (a, b)))))) ∧
    (∀ (m : Machine Window) (w : Window) (x y rows : Nibble), memorySize ≤ m.memory.size →
      m.display.screen = w.showing m.display →
      ∃ n, m.execute (.draw x y rows) = .ok () n ∧ m.Drawn x y rows n ∧
        (8 ≤ m.display.width → 15 ≤ m.display.height → m.DrawnOnce x y rows n) ∧
        ∀ a b k : Nat, a < m.display.width → b < m.display.height → k < 3 →
          n.display.screen.buffer[3 * (b * m.display.width + a) + k]? =
            (w.colour (m.display.isLit a b ^^ decide (Odd (m.hits x y rows (a, b))))).bytes[k]?) ∧
    ∀ m, Reachable m → memorySize ≤ m.memory.size ∧ m.display.Fits ∧ m.display.Mirrors := by
  refine ⟨?_, ?_, ?_⟩
  · intro m x y rows hmemory hfits hmirrors
    obtain ⟨n, hexecute, hdrawn, hdisplay⟩ :=
      exists_drawn hmemory (Display.unfailing_of_mirrors hfits hmirrors) x y rows
    refine ⟨n, hexecute, hdrawn, hdrawn.once, ?_⟩
    intro a b ha hb
    obtain ⟨-, hshown⟩ := Display.after_mirrors hfits hmirrors (Display.flipsAt (m.sprite x y rows))
    rw [← hdisplay] at hshown
    have hpixel := hshown.getElem?_pixels (hdrawn.width ▸ ha) (hdrawn.height ▸ hb)
    rwa [hdrawn.width, hdrawn.pixel a b ha hb] at hpixel
  · intro m w x y rows hmemory hshowing
    obtain ⟨n, hexecute, hdrawn, hdisplay⟩ :=
      exists_drawn hmemory (Display.unfailing_of_showing hshowing) x y rows
    refine ⟨n, hexecute, hdrawn, hdrawn.once, ?_⟩
    intro a b k ha hb hk
    have hshown := Display.after_showing hshowing (Display.flipsAt (m.sprite x y rows))
      fun hmem => absurd hmem (Display.refresh_not_mem_flipsAt _)
    rw [← hdisplay] at hshown
    have hpixel := n.display.getElem?_image w.colour (hdrawn.width ▸ ha) (hdrawn.height ▸ hb) hk
    rw [hdrawn.width, hdrawn.pixel a b ha hb] at hpixel
    rw [hshown]
    exact hpixel
  · intro m hm
    exact ⟨hm.legal.memory.ge, hm.legal.fits, hm.legal.mirrors⟩

/-! ## A glyph on a narrow display -/

def atGlyph {ρ : Type} (d : Display ρ) : Machine ρ where
  memory := memoryWith #[]
  stack := CallStack.empty stackDepth
  display := d
  keypad := Keypad.released
  timers := Timers.stopped
  random := RandomSource.cycling []
  indexOverflow := false
  live := false
  v := Vector.replicate 16 0
  index := glyphs
  pc := origin
  address := origin
  word := 0
  keys := Keypad.released.down
  awaiting := false
  fault := none

omit [Screen ρ] in
theorem spriteRow_atGlyph (d : Display ρ) {row : Nat} (hrow : row < 5) :
    some ((atGlyph d).spriteRow row) = font[row]? := by
  have hsize : row < font.size := Nat.lt_of_lt_of_le hrow (by decide)
  have hglyph := getElem?_memoryWith_glyph #[] hsize
  have haddress : wrapAddress ((glyphs : Int) + row) = (glyphs + row : Nat) := by
    have hglyphs : glyphs = 80 := rfl
    rw [wrapAddress_of_lt (by omega) (by omega)]
    omega
  change some ((memoryWith #[]).byteAt (wrapAddress ((glyphs : Int) + row))) = _
  unfold Memory.byteAt
  rw [haddress, Int.toNat_natCast, hglyph, Array.getElem?_eq_getElem hsize]
  rfl

omit [Screen ρ] in
theorem hits_atGlyph (d : Display ρ) (x y : Nibble) (hw : d.width = 3) (hh : d.height = 1) :
    (atGlyph d).hits x y 1 (0, 0) = 2 ∧ (atGlyph d).hits x y 1 (1, 0) = 1 := by
  have hrow : (atGlyph d).spriteRow 0 = 0xF0 :=
    Option.some.inj (spriteRow_atGlyph d (by decide))
  have hwidth : (atGlyph d).display.width = 3 := hw
  have hheight : (atGlyph d).display.height = 1 := hh
  have hregister : ∀ r, (atGlyph d).get r = 0 := Nibble.get_replicate 0
  have hhits : ∀ pixel, (atGlyph d).hits x y 1 pixel =
      ((Finset.range 1 ×ˢ Finset.range 8).filter fun p : Nat × Nat =>
        0xF0 &&& (0x80 >>> p.2) ≠ 0 ∧ (p.2 % 3, 0) = pixel).card := by
    intro pixel
    refine congrArg Finset.card (Finset.filter_congr ?_)
    rintro ⟨row, column⟩ hp
    simp only [Finset.mem_product, Finset.mem_range] at hp
    obtain rfl : row = 0 := Nat.lt_one_iff.1 hp.1
    simp [SpriteBit, spriteCell, hrow, hwidth, hheight, hregister]
  rw [hhits, hhits]
  decide

omit [Screen ρ] in
theorem collides_atGlyph (d : Display ρ) (x y : Nibble) (hw : d.width = 3) (hh : d.height = 1) :
    (atGlyph d).Collides x y 1 := by
  have htwice := (hits_atGlyph d x y hw hh).1
  have hwidth : (atGlyph d).display.width = 3 := hw
  have hheight : (atGlyph d).display.height = 1 := hh
  exact ⟨0, 0, by omega, by omega, Or.inr htwice.ge⟩

omit [Screen ρ] in
theorem flipped_atGlyph (d : Display ρ) (x y : Nibble) (hw : d.width = 3) (hh : d.height = 1)
    (hdark : ∀ x y, d.isLit x y = false) :
    ((atGlyph d).display.isLit (0 : Nat) (0 : Nat) ^^
        decide (Odd ((atGlyph d).hits x y 1 (0, 0)))) = false ∧
      ((atGlyph d).display.isLit (1 : Nat) (0 : Nat) ^^
        decide (Odd ((atGlyph d).hits x y 1 (1, 0)))) = true := by
  obtain ⟨htwice, honce⟩ := hits_atGlyph d x y hw hh
  have hunlit : ∀ x y, (atGlyph d).display.isLit x y = false := hdark
  rw [htwice, honce, hunlit, hunlit]
  decide

/-- On a dark display of three columns the glyph hits its own first pixel a second time: the pixel
is dark again and the flag is set, though the flag register told where to draw. -/
theorem glyph_hits_itself :
    (∃ m n : Machine Grid, m.display.width = 3 ∧ (∀ x y, m.display.isLit x y = false) ∧
      m.execute (.draw flagRegister flagRegister 1) = .ok () n ∧ n.get flagRegister = 1 ∧
      n.display.screen.pixels[0]? = some 0 ∧ n.display.screen.pixels[1]? = some 1) ∧
    ∃ (m n : Machine Window) (w : Window), m.display.screen = w.showing m.display ∧
      m.execute (.draw flagRegister flagRegister 1) = .ok () n ∧ n.get flagRegister = 1 ∧
      n.display.screen.buffer[0]? = some w.background.red ∧
      n.display.screen.buffer[3]? = some w.foreground.red := by
  have hpos : (0 : Int) < 3 ∧ (0 : Int) < 1 := by decide
  obtain ⟨hgrid, hwindow, -⟩ := draw_flips_hit_pixels
  constructor
  · obtain ⟨d, hw, hh, hdark, hfits, hmirrors⟩ := Display.exists_mirroring hpos (by decide)
    obtain ⟨n, hexecute, hdrawn, -, hpixel⟩ := hgrid (atGlyph d) flagRegister flagRegister 1
      (size_memoryWith #[]).ge hfits hmirrors
    obtain ⟨hoff, hon⟩ := flipped_atGlyph d flagRegister flagRegister hw hh hdark
    have hwidth : (atGlyph d).display.width = 3 := hw
    have hheight : (atGlyph d).display.height = 1 := hh
    have hfirst := hpixel 0 0 (by omega) (by omega)
    have hsecond := hpixel 1 0 (by omega) (by omega)
    rw [hoff, Nat.zero_mul] at hfirst
    rw [hon, Nat.zero_mul] at hsecond
    have hflag := hdrawn.collision (collides_atGlyph d _ _ hw hh)
    exact ⟨atGlyph d, n, hw, hdark, hexecute, hflag, hfirst, hsecond⟩
  · obtain ⟨w, d, hw, hh, hdark, hshow⟩ := Display.exists_showing hpos
    obtain ⟨n, hexecute, hdrawn, -, hpixel⟩ := hwindow (atGlyph d) w flagRegister flagRegister 1
      (size_memoryWith #[]).ge hshow
    obtain ⟨hoff, hon⟩ := flipped_atGlyph d flagRegister flagRegister hw hh hdark
    have hwidth : (atGlyph d).display.width = 3 := hw
    have hheight : (atGlyph d).display.height = 1 := hh
    have hfirst := hpixel 0 0 0 (by omega) (by omega) (by decide)
    have hsecond := hpixel 1 0 0 (by omega) (by omega) (by decide)
    rw [hoff, Nat.zero_mul] at hfirst
    rw [hon, Nat.zero_mul] at hsecond
    have hflag := hdrawn.collision (collides_atGlyph d _ _ hw hh)
    exact ⟨atGlyph d, n, w, hshow, hexecute, hflag, hfirst, hsecond⟩

end Machine

end Chip8
