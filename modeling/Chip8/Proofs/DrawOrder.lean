import Mathlib.Algebra.BigOperators.Group.List.Basic
import Chip8.Proofs.Sprite

/-!
# Sprites in any order

What many sprites leave of a picture, one drawn after the other.  They read the index, the memory
and registers that no sprite changes, so that each hits the same pixels whenever its turn comes.  A
pixel changes if all of them together hit it an odd number of times, which does not depend on their
order.
-/

namespace Chip8

/-! ## What a screen shows -/

namespace Display

variable {ρ : Type}

theorem toList_lit_congr {d e : Display ρ} (hwidth : d.width = e.width)
    (hheight : d.height = e.height)
    (hlit : ∀ a b : Nat, a < d.width → b < d.height → d.isLit a b = e.isLit a b) :
    d.lit.toList = e.lit.toList := by
  apply List.ext_getElem?
  intro i
  by_cases hi : i < d.width * d.height
  · obtain ⟨a, b, ha, hb, rfl⟩ : ∃ a b, a < d.width ∧ b < d.height ∧ b * d.width + a = i := by
      obtain ⟨a, b, hmem, hplace⟩ := exists_mem_coordinates hi
      simp only [coordinates, List.mem_flatMap, List.mem_map, List.mem_range, Prod.mk.injEq] at hmem
      obtain ⟨y, hy, x, hx, hxa, hyb⟩ := hmem
      exact ⟨a, b, by omega, by omega, hplace⟩
    have hpixel := getElem?_toList_lit (d := e) (hwidth ▸ ha) (hheight ▸ hb)
    rw [getElem?_toList_lit ha hb, hwidth, hpixel, hlit a b ha hb]
  · rw [List.getElem?_eq_none, List.getElem?_eq_none]
    · rw [Vector.length_toList, ← hwidth, ← hheight]
      omega
    · rw [Vector.length_toList]
      omega

variable [Screen ρ]

/-- Whatever is drawn on a display, the pixels alone tell what its screen shows. -/
def ToldByPixels (seen : ρ → Array UInt8) (d : Display ρ) : Prop :=
  ∃ picture : List Bool → Array UInt8,
    ∀ rs, .refresh ∉ rs → seen (d.after rs).screen = picture (d.after rs).lit.toList

theorem toldByPixels_of_mirrors {d : Display Grid} (h : d.Fits) (hm : d.Mirrors) :
    d.ToldByPixels Grid.pixels := by
  refine ⟨fun lit => (lit.map pixelByte).toArray, fun rs _ => ?_⟩
  obtain ⟨-, hmirrors⟩ := after_mirrors h hm rs
  apply Array.toList_inj.1
  exact hmirrors

theorem toldByPixels_of_showing {d : Display Window} {w : Window} (h : d.screen = w.showing d) :
    d.ToldByPixels Window.buffer := by
  refine ⟨fun lit => Rgb.encode (lit.map w.colour), fun rs hrs => ?_⟩
  rw [after_showing h rs fun hmem => absurd hmem hrs]
  rfl

end Display

/-! ## Drawing many sprites -/

/-- An instruction that draws a sprite, and does not read where from the flag register. -/
structure Draw where
  x : Nibble
  y : Nibble
  rows : Nibble
  x_ne : x ≠ Machine.flagRegister
  y_ne : y ≠ Machine.flagRegister
  deriving DecidableEq

def Draw.instruction (d : Draw) : Instruction := .draw d.x d.y d.rows

namespace Machine

variable {ρ : Type}

def allHits (m : Machine ρ) (draws : List Draw) (pixel : Nat × Nat) : Nat :=
  (draws.map fun d => m.hits d.x d.y d.rows pixel).sum

/-- What any number of sprites leaves as it is. -/
structure Undrawn (m n : Machine ρ) : Prop where
  width : n.display.width = m.display.width
  height : n.display.height = m.display.height
  register : ∀ r, r ≠ flagRegister → n.get r = m.get r
  rest : n = { m with display := n.display, v := n.v }

variable {m n k : Machine ρ}

theorem Undrawn.refl (m : Machine ρ) : m.Undrawn m := ⟨rfl, rfl, fun _ _ => rfl, rfl⟩

theorem Undrawn.trans (h : m.Undrawn n) (hk : n.Undrawn k) : m.Undrawn k where
  width := hk.width.trans h.width
  height := hk.height.trans h.height
  register := fun r hr => (hk.register r hr).trans (h.register r hr)
  rest := by
    rw [hk.rest, h.rest]

theorem Drawn.undrawn {x y rows : Nibble} (h : m.Drawn x y rows n) : m.Undrawn n :=
  ⟨h.width, h.height, h.register, h.rest⟩

theorem Undrawn.hits_eq (h : m.Undrawn n) (d : Draw) (pixel : Nat × Nat) :
    n.hits d.x d.y d.rows pixel = m.hits d.x d.y d.rows pixel := by
  have hrow : n.spriteRow = m.spriteRow := by
    rw [h.rest]
    rfl
  have hcell : n.spriteCell d.x d.y = m.spriteCell d.x d.y := by
    funext row column
    unfold spriteCell
    rw [h.width, h.height, h.register d.x d.x_ne, h.register d.y d.y_ne]
  unfold hits SpriteBit
  rw [hcell]
  exact congrArg Finset.card (Finset.filter_congr fun p _ => by rw [hrow])

theorem Undrawn.allHits_eq (h : m.Undrawn n) (draws : List Draw) (pixel : Nat × Nat) :
    n.allHits draws pixel = m.allHits draws pixel := by
  unfold allHits
  simp only [h.hits_eq]

theorem allHits_cons (m : Machine ρ) (d : Draw) (rest : List Draw) (pixel : Nat × Nat) :
    m.allHits (d :: rest) pixel = m.hits d.x d.y d.rows pixel + m.allHits rest pixel :=
  List.sum_cons

theorem allHits_perm (m : Machine ρ) {draws others : List Draw} (h : draws.Perm others)
    (pixel : Nat × Nat) : m.allHits draws pixel = m.allHits others pixel :=
  (h.map _).sum_eq

variable [Screen ρ]

def executeAll (m : Machine ρ) : List Instruction → Result ρ Unit
  | [] => .ok () m
  | i :: rest =>
    match m.execute i with
    | .error e n => .error e n
    | .ok () n => n.executeAll rest

theorem decide_odd_add (i j : Nat) :
    decide (Odd (i + j)) = (decide (Odd i) ^^ decide (Odd j)) := by
  by_cases hi : Odd i <;> by_cases hj : Odd j <;> simp [Nat.odd_add, ← Nat.not_odd_iff_even, hi, hj]

structure DrawnAll (m : Machine ρ) (draws : List Draw) (n : Machine ρ) : Prop where
  undrawn : m.Undrawn n
  asked : ∃ rs, .refresh ∉ rs ∧ n.display = m.display.after rs
  pixel : ∀ a b : Nat, a < m.display.width → b < m.display.height →
    n.display.isLit a b = (m.display.isLit a b ^^ decide (Odd (m.allHits draws (a, b))))

theorem exists_drawnAll (hmemory : memorySize ≤ m.memory.size) (h : m.display.Unfailing)
    (draws : List Draw) :
    ∃ n, m.executeAll (draws.map Draw.instruction) = .ok () n ∧ m.DrawnAll draws n := by
  -- On the sprites: the machine that the first one leaves is hit by the others as `m` would be.
  induction draws generalizing m with
  | nil =>
    exact ⟨m, rfl, Undrawn.refl m, ⟨[], List.not_mem_nil, rfl⟩, fun a b _ _ => by simp [allHits]⟩
  | cons d rest ih =>
    obtain ⟨n, hexecute, hdrawn, hdisplay⟩ := exists_drawn hmemory h d.x d.y d.rows
    have hundrawn := hdrawn.undrawn
    have hsize : memorySize ≤ n.memory.size := by
      rw [hdrawn.rest]
      exact hmemory
    have hgoes : n.display.Unfailing := by
      rw [hdisplay]
      exact h.after (Display.refresh_not_mem_flipsAt _)
    obtain ⟨k, hrest, hall⟩ := ih hsize hgoes
    obtain ⟨rs, hrs, hasked⟩ := hall.asked
    refine ⟨k, ?_, hundrawn.trans hall.undrawn,
      ⟨Display.flipsAt (m.sprite d.x d.y d.rows) ++ rs, ?_, ?_⟩, ?_⟩
    · rw [List.map_cons, executeAll, Draw.instruction, hexecute]
      exact hrest
    · exact fun hmem => (List.mem_append.1 hmem).elim (Display.refresh_not_mem_flipsAt _) hrs
    · rw [hasked, hdisplay, Display.after_append]
    · intro a b ha hb
      have hlater := hall.pixel a b (hundrawn.width ▸ ha) (hundrawn.height ▸ hb)
      rw [hundrawn.allHits_eq, hdrawn.pixel a b ha hb] at hlater
      rw [hlater, allHits_cons, decide_odd_add, Bool.xor_assoc]

/-! ## Pictures that do not depend on the order -/

/-- Two machines have the same picture, and what is seen on their screens is the same. -/
structure LooksLike (seen : ρ → Array UInt8) (m n : Machine ρ) : Prop where
  snapshot : m.display.snapshot = n.display.snapshot
  screen : seen m.display.screen = seen n.display.screen

/-- Whatever sprites are drawn on a machine goes through, and what is seen then does not depend on
their order: two of the same in a row leave what was there before. -/
structure OrderFree (seen : ρ → Array UInt8) (m : Machine ρ) : Prop where
  twice : ∀ d : Draw, ∃ n,
    m.executeAll [d.instruction, d.instruction] = .ok () n ∧ LooksLike seen n m
  swapped : ∀ d e : Draw, ∃ n k,
    m.executeAll [d.instruction, e.instruction] = .ok () n ∧
      m.executeAll [e.instruction, d.instruction] = .ok () k ∧ LooksLike seen n k
  permuted : ∀ draws others : List Draw, draws.Perm others → ∃ n k,
    m.executeAll (draws.map Draw.instruction) = .ok () n ∧
      m.executeAll (others.map Draw.instruction) = .ok () k ∧ LooksLike seen n k

/-- Sprites that hit each pixel equally often, but for an even number, leave the same picture. -/
theorem exists_looksLike {seen : ρ → Array UInt8} (hmemory : memorySize ≤ m.memory.size)
    (h : m.display.Unfailing) (htold : m.display.ToldByPixels seen) {draws others : List Draw}
    (hodd : ∀ pixel, Odd (m.allHits draws pixel) ↔ Odd (m.allHits others pixel)) :
    ∃ n k, m.executeAll (draws.map Draw.instruction) = .ok () n ∧
      m.executeAll (others.map Draw.instruction) = .ok () k ∧ LooksLike seen n k := by
  obtain ⟨n, hn, hdrawn⟩ := exists_drawnAll hmemory h draws
  obtain ⟨k, hk, hothers⟩ := exists_drawnAll hmemory h others
  have hwidth := hdrawn.undrawn.width
  have hheight := hdrawn.undrawn.height
  have hlit : n.display.lit.toList = k.display.lit.toList := by
    refine Display.toList_lit_congr (hwidth.trans hothers.undrawn.width.symm)
      (hheight.trans hothers.undrawn.height.symm) ?_
    intro a b ha hb
    rw [hwidth] at ha
    rw [hheight] at hb
    rw [hdrawn.pixel a b ha hb, hothers.pixel a b ha hb, decide_eq_decide.2 (hodd (a, b))]
  refine ⟨n, k, hn, hk, ⟨?_, ?_⟩⟩
  · rw [Display.snapshot, Display.snapshot, hlit]
  · obtain ⟨picture, hpicture⟩ := htold
    obtain ⟨rs, hrs, hasked⟩ := hdrawn.asked
    obtain ⟨ss, hss, hothersAsked⟩ := hothers.asked
    rw [hasked, hothersAsked, hpicture rs hrs, hpicture ss hss, ← hasked, ← hothersAsked, hlit]

theorem orderFree_of_toldByPixels {seen : ρ → Array UInt8} (hmemory : memorySize ≤ m.memory.size)
    (h : m.display.Unfailing) (htold : m.display.ToldByPixels seen) : m.OrderFree seen where
  twice := by
    intro d
    have heven : ∀ pixel, Odd (m.allHits [d, d] pixel) ↔ Odd (m.allHits [] pixel) := by
      intro pixel
      simp [allHits]
    obtain ⟨n, k, hn, hk, hlooks⟩ := exists_looksLike hmemory h htold heven
    cases hk
    exact ⟨n, hn, hlooks⟩
  swapped := by
    intro d e
    have hsame : ∀ pixel, Odd (m.allHits [d, e] pixel) ↔ Odd (m.allHits [e, d] pixel) := by
      intro pixel
      rw [m.allHits_perm (List.Perm.swap e d [])]
    exact exists_looksLike hmemory h htold hsame
  permuted := by
    intro draws others hperm
    exact exists_looksLike hmemory h htold fun pixel => by rw [m.allHits_perm hperm]

/-- Sprites can be drawn in any order, on every display and on the grid or the window that shows
it, as long as none of them reads where from the flag register; and one that is drawn twice is gone.
The machines that a usual one can become all show their display. -/
theorem draws_in_any_order :
    (∀ m : Machine Grid, memorySize ≤ m.memory.size → m.display.Fits → m.display.Mirrors →
      m.OrderFree Grid.pixels) ∧
    (∀ (m : Machine Window) (w : Window), memorySize ≤ m.memory.size →
      m.display.screen = w.showing m.display → m.OrderFree Window.buffer) ∧
    ∀ m, Reachable m → memorySize ≤ m.memory.size ∧ m.display.Fits ∧ m.display.Mirrors := by
  refine ⟨?_, ?_, ?_⟩
  · intro m hmemory hfits hmirrors
    exact orderFree_of_toldByPixels hmemory (Display.unfailing_of_mirrors hfits hmirrors)
      (Display.toldByPixels_of_mirrors hfits hmirrors)
  · intro m w hmemory hshowing
    exact orderFree_of_toldByPixels hmemory (Display.unfailing_of_showing hshowing)
      (Display.toldByPixels_of_showing hshowing)
  · intro m hm
    exact ⟨hm.legal.memory.ge, hm.legal.fits, hm.legal.mirrors⟩

/-! ## Glyphs over each other -/

def drawRow : Draw := ⟨Nibble.ofNat 0, Nibble.ofNat 1, Nibble.ofNat 1, by decide, by decide⟩

def drawGlyph : Draw := ⟨Nibble.ofNat 1, Nibble.ofNat 0, Nibble.ofNat 5, by decide, by decide⟩

/-- On a dark display of three columns the first row of a glyph, which lights a pixel, is gone again
after it was drawn twice; and it does not matter whether the whole glyph is drawn in between. -/
theorem glyph_row_drawn_twice :
    (∃ m n k : Machine Grid, (∀ x y, m.display.isLit x y = false) ∧
      m.execute drawRow.instruction = .ok () n ∧ n.display.isLit 1 0 = true ∧
      m.executeAll [drawRow.instruction, drawRow.instruction] = .ok () k ∧
      LooksLike Grid.pixels k m) ∧
    ∃ m n k : Machine Window,
      m.executeAll [drawRow.instruction, drawGlyph.instruction, drawRow.instruction] = .ok () n ∧
      m.executeAll [drawRow.instruction, drawRow.instruction, drawGlyph.instruction] = .ok () k ∧
      LooksLike Window.buffer n k := by
  have hpos : (0 : Int) < 3 ∧ (0 : Int) < 1 := by decide
  obtain ⟨hgrid, hwindow, -⟩ := draws_in_any_order
  constructor
  · obtain ⟨d, hw, hh, hdark, hfits, hmirrors⟩ := Display.exists_mirroring hpos (by decide)
    have hmemory : memorySize ≤ (atGlyph d).memory.size := (size_memoryWith #[]).ge
    obtain ⟨k, htwice, hlooks⟩ := (hgrid (atGlyph d) hmemory hfits hmirrors).twice drawRow
    obtain ⟨n, hexecute, hdrawn, -⟩ := exists_drawn hmemory
      (Display.unfailing_of_mirrors hfits hmirrors) drawRow.x drawRow.y drawRow.rows
    obtain ⟨-, hon⟩ := flipped_atGlyph d drawRow.x drawRow.y hw hh hdark
    have hwidth : (atGlyph d).display.width = 3 := hw
    have hheight : (atGlyph d).display.height = 1 := hh
    have hpixel := (hdrawn.pixel 1 0 (by omega) (by omega)).trans hon
    exact ⟨atGlyph d, n, k, hdark, hexecute, hpixel, htwice, hlooks⟩
  · obtain ⟨w, d, hw, hh, hdark, hshow⟩ := Display.exists_showing hpos
    have hmemory : memorySize ≤ (atGlyph d).memory.size := (size_memoryWith #[]).ge
    have hperm : [drawRow, drawGlyph, drawRow].Perm [drawRow, drawRow, drawGlyph] := by decide
    obtain ⟨n, k, hn, hk, hlooks⟩ := (hwindow (atGlyph d) w hmemory hshow).permuted _ _ hperm
    exact ⟨atGlyph d, n, k, hn, hk, hlooks⟩

end Machine

end Chip8
