import Chip8.Proofs.Mirror
import Chip8.Proofs.Picture
import Chip8.Screen.Window

/-!
# Displays on a window

A window's buffer is a list of colours, three bytes each.  As long as it has the measures of its
display nothing fails, and every request leaves it with the picture in the window's two colours.
-/

namespace Chip8

namespace Rgb

def encode (colours : List Rgb) : Array UInt8 :=
  (colours.flatMap fun c => c.bytes.toList).toArray

theorem size_encode (colours : List Rgb) : (encode colours).size = 3 * colours.length := by
  induction colours with
  | nil => rfl
  | cons c rest ih =>
    simp only [encode, List.size_toArray, List.flatMap_cons, List.length_append,
      List.length_cons, bytes, List.length_nil] at ih ⊢
    omega

theorem getElem?_encode (colours : List Rgb) (i : Nat) {k : Nat} (hk : k < 3) :
    (encode colours)[3 * i + k]? = colours[i]?.bind fun c => c.bytes[k]? := by
  unfold encode
  rw [List.getElem?_toArray]
  induction colours generalizing i with
  | nil => simp
  | cons c rest ih =>
    have hlength : c.bytes.toList.length = 3 := rfl
    rw [List.flatMap_cons]
    cases i with
    | zero =>
      rw [List.getElem?_append_left (by omega), Nat.mul_zero, Nat.zero_add, Array.getElem?_toList]
      rfl
    | succ i =>
      rw [List.getElem?_append_right (by omega), hlength, List.getElem?_cons_succ, ← ih i]
      congr 1
      omega

theorem overwrite_encode (colours : List Rgb) {i : Nat} (hi : i < colours.length) (c : Rgb) :
    Memory.overwrite (encode colours) (3 * i) c.bytes.toList = encode (colours.set i c) := by
  have hlength : c.bytes.toList.length = 3 := rfl
  apply Array.ext_getElem?
  intro n
  by_cases hn : n < 3 * colours.length
  · obtain ⟨q, k, hk, rfl⟩ : ∃ q k, k < 3 ∧ n = 3 * q + k :=
      ⟨n / 3, n % 3, Nat.mod_lt n (by decide), (Nat.div_add_mod n 3).symm⟩
    rw [Memory.getElem?_overwrite _ _ _ (by rwa [size_encode]), getElem?_encode _ _ hk,
      getElem?_encode _ _ hk, List.getElem?_set, hlength]
    by_cases hq : i = q
    · subst hq
      rw [if_pos (by omega), if_pos rfl, if_pos hi, Nat.add_sub_cancel_left,
        Array.getElem?_toList]
      rfl
    · rw [if_neg (by omega), if_neg hq]
  · rw [Array.getElem?_eq_none, Array.getElem?_eq_none]
    · rw [size_encode, List.length_set]
      omega
    · rw [Memory.size_overwrite, size_encode]
      omega

theorem encode_replicate (n : Nat) (c : Rgb) :
    encode (List.replicate n c) = (List.replicate n c.bytes).toArray.flatten := by
  rw [encode, List.flatMap_def, List.map_replicate, Array.flatten_toArray, List.map_replicate]

def value (c : Rgb) : Int := 65536 * c.red.toNat + 256 * c.green.toNat + c.blue.toNat

theorem value_of_ofColour? {colour : Int} {c : Rgb} (h : ofColour? colour = some c) :
    c.value = colour := by
  unfold ofColour? at h
  split at h
  · cases h
    simp only [value, UInt8.toNat_ofNat']
    omega
  · cases h

theorem isSome_ofColour? {colour : Int} (h : 0 ≤ colour ∧ colour < 0x1000000) :
    ∃ c, ofColour? colour = some c := by
  unfold ofColour?
  rw [if_pos h]
  exact ⟨_, rfl⟩

end Rgb

def Display.image {ρ : Type} (d : Display ρ) (colour : Bool → Rgb) : Array UInt8 :=
  Rgb.encode (d.lit.toList.map colour)

namespace Window

def colour (w : Window) (lit : Bool) : Rgb := if lit then w.foreground else w.background

theorem setPixel_eq {w : Window} {colours : List Rgb} (hbuffer : w.buffer = Rgb.encode colours)
    {x y : Int} {i : Nat} (hplace : y * w.width + x = i) (hi : i < colours.length) (lit : Bool) :
    Screen.setPixel w x y (if lit then 1 else 0) =
      .ok () { w with buffer := Rgb.encode (colours.set i (w.colour lit)) } := by
  have hcolour : w.colour? (if lit then 1 else 0) = some (w.colour lit) := by
    cases lit <;> rfl
  have hsize : w.buffer.size = 3 * colours.length := by rw [hbuffer, Rgb.size_encode]
  have hstart : Memory.cut w.buffer.size (i * 3) = 3 * i := by
    unfold Memory.cut
    rw [if_neg (by omega)]
    omega
  have hspans : Memory.Spans w.buffer.size (i * 3) (i * 3 + 3) 3 := by
    unfold Memory.Spans
    rw [hstart]
    unfold Memory.cut
    rw [if_neg (by omega)]
    omega
  change setPixel w x y _ = _
  unfold setPixel
  rw [hplace, hcolour]
  dsimp only
  rw [if_pos hspans, hstart, hbuffer, Rgb.overwrite_encode colours hi]

theorem paint_eq {w : Window} {colours : List Rgb} (hbuffer : w.buffer = Rgb.encode colours)
    {places : List (Int × Int)}
    (h : ∀ p ∈ places, 0 ≤ p.2 * w.width + p.1 ∧ p.2 * w.width + p.1 < colours.length) :
    Screen.paint 0 w places =
      .ok () { w with
        buffer := Rgb.encode
          (fill w.background colours (places.map fun p => (p.2 * w.width + p.1).toNat)) } := by
  induction places generalizing w colours with
  | nil =>
    rw [List.map_nil, fill, ← hbuffer]
    rfl
  | cons place rest ih =>
    obtain ⟨x, y⟩ := place
    obtain ⟨h₀, hlt⟩ := h (x, y) List.mem_cons_self
    have hset := setPixel_eq hbuffer (Int.toNat_of_nonneg h₀).symm (by omega) false
    rw [Screen.paint]
    dsimp only at hset ⊢
    rw [if_neg Bool.false_ne_true] at hset
    rw [hset]
    dsimp only
    rw [ih rfl]
    · rfl
    · intro p hp
      rw [List.length_set]
      exact h p (List.mem_cons_of_mem _ hp)

theorem request_eq {w : Window} (hobeyed : w.answers = []) (calls : List HostCall) :
    w.request calls = .done w calls := by
  obtain ⟨scale, background, foreground, width, height, title, buffer, _⟩ := w
  cases hobeyed
  unfold request
  rw [HostCall.ask_nil]
  rfl

def showing {ρ : Type} (w : Window) (d : Display ρ) : Window :=
  { w with width := d.width, height := d.height, buffer := d.image w.colour }

end Window

namespace Display

variable {d : Display Window} {w : Window}

theorem length_map_lit {ρ α : Type} (d : Display ρ) (f : Bool → α) :
    (d.lit.toList.map f).length = d.width * d.height := by
  rw [List.length_map, Vector.length_toList]

theorem getElem?_image {ρ : Type} (d : Display ρ) (colour : Bool → Rgb) {a b k : Nat}
    (ha : a < d.width) (hb : b < d.height) (hk : k < 3) :
    (d.image colour)[3 * (b * d.width + a) + k]? = (colour (d.isLit a b)).bytes[k]? := by
  rw [image, Rgb.getElem?_encode _ _ hk, List.getElem?_map, getElem?_toList_lit ha hb]
  rfl

theorem setPixel_showing (h : d.screen = w.showing d) (x y : Int) :
    Screen.setPixel d.screen (d.column x) (d.row y) (if d.isLit x y then 0 else 1) =
      .ok () (w.showing { d with lit := d.litAfter (.flip x y) }) := by
  have hplace : (d.row y : Int) * (w.showing d).width + d.column x = (d.place x y : Nat) := by
    simp only [Window.showing, place]
    omega
  have hlt : (d.place x y : Nat) < (d.lit.toList.map w.colour).length := by
    rw [length_map_lit]
    exact (d.place x y).isLt
  have hnumber : (if d.isLit x y then 0 else 1 : Int) = if !d.isLit x y then 1 else 0 := by
    cases d.isLit x y <;> rfl
  have hset := Window.setPixel_eq (w := w.showing d) rfl hplace hlt (!d.isLit x y)
  rw [h, hnumber, hset]
  simp only [Window.showing, image, litAfter, Vector.toList_set, List.map_set]
  rfl

theorem paint_showing (h : d.screen = w.showing d) :
    Screen.paint 0 d.screen d.coordinates =
      .ok () (w.showing { d with lit := d.litAfter .clear }) := by
  have hcell : ∀ x y : Nat,
      (y : Int) * (w.showing d).width + x = (y * d.width + x : Nat) := by
    intro x y
    simp only [Window.showing]
    omega
  have hholds : ∀ p ∈ d.coordinates, 0 ≤ p.2 * (w.showing d).width + p.1 ∧
      p.2 * (w.showing d).width + p.1 < (d.lit.toList.map w.colour).length := by
    intro p hp
    obtain ⟨x, y, rfl, hplace⟩ := exists_of_mem_coordinates hp
    rw [hcell, length_map_lit]
    omega
  have hall : ∀ i < (d.lit.toList.map w.colour).length,
      i ∈ d.coordinates.map fun p => (p.2 * (w.showing d).width + p.1).toNat := by
    intro i hi
    rw [length_map_lit] at hi
    obtain ⟨x, y, hmem, hplace⟩ := exists_mem_coordinates hi
    refine List.mem_map.2 ⟨_, hmem, ?_⟩
    rw [hcell, hplace, Int.toNat_natCast]
  rw [h, Window.paint_eq (w := w.showing d) rfl hholds, fill_eq_replicate _ hall,
    length_map_lit]
  simp only [Window.showing, image, litAfter, Vector.toList_replicate, List.map_replicate]
  rfl

theorem draw_showing (hobeyed : w.answers = []) (d : Display Window) :
    (w.showing d).draw =
      .done (w.showing d)
        [.frame d.width d.height (d.image w.colour), .scale w.scale w.scaledHeight, .blit,
          .flip] := by
  have hwidth : (0 : Int) < d.width := Int.natCast_pos.2 d.width_pos
  have hheight : (0 : Int) < d.height := Int.natCast_pos.2 d.height_pos
  have hsize : ((d.image w.colour).size : Int) = 3 * (d.width * d.height) := by
    rw [image, Rgb.size_encode, length_map_lit]
    norm_cast
  unfold Window.draw
  rw [if_pos ⟨hwidth, hheight, hsize⟩]
  exact Window.request_eq (w := w.showing d) hobeyed _

theorem refresh_showing (hobeyed : w.answers = []) (h : d.screen = w.showing d) :
    Screen.refresh d.screen d.changed =
      .done d.screen
        (if d.changed then
          [.refresh true, .frame d.width d.height (d.image w.colour),
            .scale w.scale w.scaledHeight, .blit, .flip]
        else [.refresh false]) := by
  have hwidth : ((w.showing d).width != 0) = true := by
    have := d.width_pos
    exact bne_iff_ne.2 (show (d.width : Int) ≠ 0 by omega)
  have hheight : ((w.showing d).height != 0) = true := by
    have := d.height_pos
    exact bne_iff_ne.2 (show (d.height : Int) ≠ 0 by omega)
  change Window.refresh d.screen d.changed = _
  rw [h, Window.refresh, Reply.done_andThen]
  cases d.changed with
  | false => rfl
  | true =>
    rw [hwidth, hheight, Bool.and_self, Bool.and_self, if_pos rfl, if_pos rfl,
      draw_showing hobeyed]
    rfl

/-- On a window that shows the display nothing fails, and it goes on showing it.  A refresh takes a
host that takes every call. -/
theorem serve_showing (h : d.screen = w.showing d) (r : Request)
    (hobeyed : r = .refresh → w.answers = []) :
    (d.serve r).result = .ok (d.answer r) ∧
      (d.serve r).display.screen = w.showing (d.serve r).display := by
  cases r with
  | flip x y =>
    have hset := setPixel_showing h x y
    unfold serve flip onScreen
    dsimp only
    rw [hset]
    exact ⟨rfl, rfl⟩
  | clear =>
    have hpaint := paint_showing h
    unfold serve clear onScreen
    dsimp only
    rw [hpaint]
    exact ⟨rfl, rfl⟩
  | refresh =>
    unfold serve refresh
    rw [refresh_showing (hobeyed rfl) h]
    exact ⟨rfl, h⟩

theorem after_showing (h : d.screen = w.showing d) (rs : List Request)
    (hobeyed : .refresh ∈ rs → w.answers = []) : (d.after rs).screen = w.showing (d.after rs) := by
  induction rs generalizing d with
  | nil => exact h
  | cons r rest ih =>
    have hserve := serve_showing h r fun hr => hobeyed (hr ▸ List.mem_cons_self)
    exact ih hserve.2 fun hmem => hobeyed (List.mem_cons_of_mem r hmem)

end Display

end Chip8
