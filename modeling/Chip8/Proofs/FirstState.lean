import Chip8.Proofs.Bank
import Chip8.Proofs.Mirror
import Chip8.Proofs.Request

/-!
# The first state

What a machine is after it was built, after a reset and after it was given a program, written out.
All of it holds for every machine with a usual memory on a grid that fits its display, whatever
else the machine holds: only the depth of its stack, the measures and the labels of its screen, its
random source and its two switches are kept.
-/

namespace Chip8

namespace Display

theorem toNat_width_pos {width height : Int} (h : 0 < width ∧ 0 < height) : 0 < width.toNat :=
  Int.pos_iff_toNat_pos.1 h.1

theorem toNat_height_pos {width height : Int} (h : 0 < width ∧ 0 < height) : 0 < height.toNat :=
  Int.pos_iff_toNat_pos.1 h.2

def built (scale : HostValue) (width height : Int) (h : 0 < width ∧ 0 < height) :
    Display Grid where
  screen :=
    { Grid.new scale with
      width, height, title := title 0 0, pixels := Array.replicate (width * height).toNat 0 }
  width := width.toNat
  height := height.toNat
  width_pos := toNat_width_pos h
  height_pos := toNat_height_pos h
  lit := Vector.replicate _ false
  changed := true

theorem new_eq {room : Memory.Room} {scale : HostValue} {width height : Int}
    (h : 0 < width ∧ 0 < height)
    (hcheck : Memory.checkSize room (width * height) = .ok ()) :
    new room (Grid.new scale) width height
      = .ok (built scale width height h, [.title (title 0 0)]) := by
  unfold new
  rw [dif_pos h, hcheck]
  simp only [Screen.setResolution, Grid.setResolution, hcheck, Reply.done, report,
    Screen.setTitle]
  rfl

theorem checkSize_of_new {room : Memory.Room} {scale : HostValue} {width height : Int}
    {d : Display Grid} {calls : List HostCall}
    (h : new room (Grid.new scale) width height = .ok (d, calls)) :
    (0 < width ∧ 0 < height) ∧ Memory.checkSize room (width * height) = .ok () := by
  unfold new at h
  split at h
  · rename_i hpos
    refine ⟨hpos, ?_⟩
    cases hcheck : Memory.checkSize room (width * height) with
    | error e => simp [hcheck] at h
    | ok u => rfl
  · cases h

theorem exists_new_iff {room : Memory.Room} (scale : HostValue) {width height : Int} :
    (∃ d calls, new room (Grid.new scale) width height = .ok (d, calls)) ↔
      (0 < width ∧ 0 < height) ∧ width * height ≤ room.bytes := by
  constructor
  · rintro ⟨d, calls, h⟩
    obtain ⟨hpos, hcheck⟩ := checkSize_of_new h
    exact ⟨hpos, (Memory.checkSize_eq_ok_iff.1 hcheck).2⟩
  · rintro ⟨hpos, hroom⟩
    have harea := Int.le_of_lt (Int.mul_pos hpos.1 hpos.2)
    exact ⟨_, _, new_eq hpos (Memory.checkSize_eq_ok_iff.2 ⟨harea, hroom⟩)⟩

theorem fits_built {scale : HostValue} {width height : Int} (h : 0 < width ∧ 0 < height)
    (hsize : Memory.Countable (width * height)) :
    (built scale width height h).Fits where
  width := by
    simp only [built]
    omega
  height := by
    simp only [built]
    omega
  size := by
    simp only [built, Array.size_replicate]
    exact Int.toNat_mul (by omega) (by omega)
  bound := by
    rw [← Int.toNat_of_nonneg (Int.le_of_lt (Int.mul_pos h.1 h.2))] at hsize
    rwa [built, Array.size_replicate]

theorem eq_built_of_new {room : Memory.Room} {scale : HostValue} {width height : Int}
    {d : Display Grid} {calls : List HostCall}
    (h : new room (Grid.new scale) width height = .ok (d, calls)) :
    ∃ hpos, d = built scale width height hpos := by
  obtain ⟨hpos, hcheck⟩ := checkSize_of_new h
  rw [new_eq hpos hcheck] at h
  cases h
  exact ⟨hpos, rfl⟩

theorem fits_of_new {room : Memory.Room} {scale : HostValue} {width height : Int}
    {d : Display Grid} {calls : List HostCall}
    (h : new room (Grid.new scale) width height = .ok (d, calls)) : d.Fits := by
  obtain ⟨hpos, hcheck⟩ := checkSize_of_new h
  obtain ⟨-, rfl⟩ := eq_built_of_new h
  exact fits_built hpos (Memory.countable_of_checkSize hcheck)

end Display

namespace Machine

def firstMemory : Memory :=
  ⟨Memory.overwrite (Memory.blank memorySize).bytes glyphs font.toList⟩

def memoryWith (program : Array UInt8) : Memory :=
  ⟨Memory.overwrite firstMemory.bytes origin program.toList⟩

def firstState (depth : Int) (display : Display Grid) (random : RandomSource)
    (indexOverflow live : Bool) : Machine Grid where
  memory := firstMemory
  stack := CallStack.empty depth
  display := display.darkened
  keypad := Keypad.released
  timers := Timers.stopped
  random := random
  indexOverflow := indexOverflow
  live := live
  v := Vector.replicate 16 0
  index := 0
  pc := origin
  address := origin
  word := 0
  keys := Keypad.released.down
  awaiting := false
  fault := none

def fresh (m : Machine Grid) : Machine Grid :=
  firstState m.stack.limit m.display m.random m.indexOverflow m.live

def loaded (m : Machine Grid) (program : Array UInt8) : Machine Grid :=
  { m.fresh with memory := memoryWith program }

variable {m : Machine Grid}

theorem size_firstMemory : firstMemory.size = memorySize := by
  simp only [firstMemory, Memory.size, Memory.size_overwrite]
  exact Memory.size_blank memorySize

theorem size_memoryWith (program : Array UInt8) : (memoryWith program).size = memorySize := by
  simp only [memoryWith, Memory.size, Memory.size_overwrite]
  exact size_firstMemory

theorem reset_eq (hmem : m.memory.size = memorySize) (hd : m.display.Fits) :
    m.reset = .ok () m.fresh := by
  have hfont : (Memory.blank m.memory.size).writeBlock glyphs font = .ok firstMemory := by
    have hfits : glyphs + font.size ≤ memorySize := by decide
    rw [hmem]
    apply Memory.writeBlock_eq
    rwa [Memory.size_blank]
  unfold reset
  simp only [Memory.clear, hfont, Display.clear_eq hd]
  rfl

theorem standard_eq {display : Display Grid} (hd : display.Fits) (random : RandomSource)
    (indexOverflow live : Bool) :
    standard display random indexOverflow live
      = .ok (firstState stackDepth display random indexOverflow live) := by
  unfold standard new
  dsimp only
  rw [reset_eq (Memory.size_blank memorySize) hd]
  rfl

theorem load_eq (hmem : m.memory.size = memorySize) (hd : m.display.Fits) {program : Array UInt8}
    (h : program.size ≤ programLimit) : m.load program = .ok () (m.loaded program) := by
  have hblock : firstMemory.writeBlock origin program = .ok (memoryWith program) := by
    apply Memory.writeBlock_eq
    rw [size_firstMemory]
    unfold programLimit at h
    have : origin ≤ memorySize := by decide
    omega
  have hfresh : m.fresh.memory = firstMemory := rfl
  unfold load loaded
  rw [if_neg (by omega), reset_eq hmem hd]
  simp only [hfresh, hblock]

theorem load_of_tooLarge {ρ : Type} [Screen ρ] (m : Machine ρ) {program : Array UInt8}
    (h : programLimit < program.size) :
    m.load program = .error (.programTooLarge program.size programLimit) m := by
  unfold load
  rw [if_pos h]

/-! ## What memory holds -/

private theorem getElem?_memoryWith (program : Array UInt8) {i : Nat} (hi : i < memorySize) :
    (memoryWith program).bytes[i]? =
      if origin ≤ i ∧ i < origin + program.size then program[i - origin]?
      else if glyphs ≤ i ∧ i < glyphs + font.size then font[i - glyphs]?
      else some 0 := by
  have hblank : (Memory.blank memorySize).bytes.size = memorySize := Memory.size_blank memorySize
  have hfirst : firstMemory.bytes.size = memorySize := size_firstMemory
  rw [memoryWith, Memory.getElem?_overwrite _ _ _ (by omega), firstMemory,
    Memory.getElem?_overwrite _ _ _ (by omega), Memory.blank, Array.getElem?_replicate, if_pos hi]
  simp only [Array.length_toList, Array.getElem?_toList]

theorem getElem?_memoryWith_glyph (program : Array UInt8) {k : Nat} (hk : k < font.size) :
    (memoryWith program).bytes[glyphs + k]? = font[k]? := by
  have hbelow : glyphs + font.size ≤ origin := by decide
  have htop : origin ≤ memorySize := by decide
  rw [getElem?_memoryWith program (by omega), if_neg (by omega), if_pos (by omega),
    Nat.add_sub_cancel_left]

theorem getElem?_memoryWith_program {program : Array UInt8} (h : program.size ≤ programLimit)
    {k : Nat} (hk : k < program.size) :
    (memoryWith program).bytes[origin + k]? = program[k]? := by
  have htop : origin + programLimit = memorySize := by decide
  rw [getElem?_memoryWith program (by omega), if_pos (by omega), Nat.add_sub_cancel_left]

theorem getElem?_memoryWith_rest (program : Array UInt8) {i : Nat} (hi : i < memorySize)
    (hglyph : i < glyphs ∨ glyphs + font.size ≤ i)
    (hprogram : i < origin ∨ origin + program.size ≤ i) :
    (memoryWith program).bytes[i]? = some 0 := by
  rw [getElem?_memoryWith program hi, if_neg (by omega), if_neg (by omega)]

end Machine

end Chip8
