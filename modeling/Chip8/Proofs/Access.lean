import Chip8.Proofs.FirstState

/-!
# Locations counted from either end

A block is written to a bank as a stretch between two locations, and each of the two is counted
from the start of the bank or, below zero, from its end.  So a block fits only if both of its ends
are counted from the same side: a stretch that would run on from below zero to the start is refused,
also where it only reaches the end of the bank.  What is accepted changes the cells of the block and
no other, and what is refused changes nothing.
-/

namespace Chip8.Memory

variable {room : Room} {m m' : Memory} {n : Nat} {location count value : Int}
  {block : Array UInt8}

/-! ## Stretches -/

/-- Whether a stretch of cells lies within a bank of `n` cells: counted from the start of the bank,
or counted from its end and short of it. -/
abbrev Fits (n : Nat) (location : Int) (count : Nat) : Prop :=
  0 ≤ location ∧ location + count ≤ n ∨ -(n : Int) ≤ location ∧ location + count < 0

def start (n : Nat) (location : Int) : Nat :=
  (if location < 0 then location + n else location).toNat

/-- What a block that was written at a location leaves: its own bytes in the cells from there on,
and in every other cell what it held. -/
structure Overwritten (m : Memory) (location : Int) (block : Array UInt8) (m' : Memory) : Prop where
  size : m'.size = m.size
  within : start m.size location + block.size ≤ m.size
  cells : ∀ j : Nat, m'.bytes[j]? =
    if start m.size location ≤ j ∧ j < start m.size location + block.size then
      block[j - start m.size location]?
    else m.bytes[j]?

theorem start_add_le {count : Nat} (h : Fits n location count) : start n location + count ≤ n := by
  unfold start
  split <;> omega

theorem cut_of_fits {count : Nat} (h : Fits n location count) :
    cut n location = start n location := by
  unfold cut start
  split <;> omega

theorem cut_add_of_fits {count : Nat} (hcount : 0 < count) (h : Fits n location count) :
    cut n (location + count) = start n location + count := by
  unfold cut start
  split <;> split <;> omega

/-- A stretch that does not reach past the top has its full length only where it fits. -/
theorem spans_iff_fits {count : Nat} (hcount : 0 < count) (htop : location + count ≤ n) :
    Spans n location (location + count) count ↔ Fits n location count := by
  constructor
  · intro h
    -- With ends counted from different sides, or a start below the first cell, the cut stretch is
    -- shorter than `count`.
    unfold Spans cut at h
    split at h <;> split at h <;> omega
  · intro h
    unfold Spans
    rw [cut_add_of_fits hcount h, cut_of_fits h, Nat.add_sub_cancel_left]

theorem replace_eq (hblock : 0 < block.size) (htop : location + block.size ≤ m.size) :
    m.replace location (location + block.size) block =
      if Fits m.size location block.size then
        .ok ⟨overwrite m.bytes (start m.size location) block.toList⟩
      else .error .wrongLength := by
  unfold replace
  by_cases h : Fits m.size location block.size
  · rw [if_pos ((spans_iff_fits hblock htop).2 h), if_pos h, cut_of_fits h]
  · rw [if_neg (mt (spans_iff_fits hblock htop).1 h), if_neg h]

theorem overwritten_overwrite (h : Fits m.size location block.size) :
    Overwritten m location block ⟨overwrite m.bytes (start m.size location) block.toList⟩ where
  size := size_overwrite ..
  within := start_add_le h
  cells := by
    intro j
    have hwithin : start m.size location + block.size ≤ m.bytes.size := start_add_le h
    by_cases hj : j < m.bytes.size
    · rw [getElem?_overwrite _ _ _ hj, Array.length_toList, Array.getElem?_toList]
    · rw [if_neg (by omega), Array.getElem?_eq_none (by rw [size_overwrite]; omega),
        Array.getElem?_eq_none (by omega)]

theorem Overwritten.readBlock_eq (h : Overwritten m location block m') (hblock : 0 < block.size)
    (hfits : Fits m.size location block.size) :
    m'.readBlock location block.size = block := by
  have hsize : m'.bytes.size = m.size := h.size
  have hwithin := h.within
  unfold readBlock
  rw [h.size, cut_of_fits hfits, cut_add_of_fits hblock hfits]
  refine Array.ext_getElem? fun i => ?_
  rw [Array.getElem?_extract]
  by_cases hi : i < block.size
  · rw [if_pos (by omega), h.cells, if_pos (by omega), Nat.add_sub_cancel_left]
  · rw [if_neg (by omega), Array.getElem?_eq_none (by omega)]

/-! ## Single cells -/

/-- A location names a cell from either end, and which one is its remainder by the size. -/
theorem cell?_eq_some_iff {i : Fin n} :
    cell? n location = some i ↔
      (-(n : Int) ≤ location ∧ location < n) ∧ ((i : Nat) : Int) = location % n := by
  unfold cell?
  split
  · rename_i h
    rw [Int.emod_eq_of_lt h.1 h.2, Option.some.injEq, Fin.ext_iff]
    dsimp only
    omega
  split
  · rename_i h
    rw [← Int.add_emod_right, Int.emod_eq_of_lt h.2 (by omega), Option.some.injEq, Fin.ext_iff]
    dsimp only
    omega
  · constructor
    · rintro ⟨⟩
    · omega

theorem write_eq_of_cell? {i : Fin m.bytes.size} (hcell : cell? m.bytes.size location = some i)
    (hvalue : 0 ≤ value ∧ value ≤ 255) :
    m.write location value = .ok ⟨m.bytes.set i (UInt8.ofNat value.toNat) i.isLt⟩ := by
  have htop : ¬m.top < location := by
    have hlt : location < m.size := (cell?_eq_some_iff.1 hcell).1.2
    unfold top
    omega
  unfold write
  rw [checkOverflow_bind, if_neg htop, hcell]
  dsimp only
  rw [if_pos (by omega)]
  rfl

theorem of_write_eq_ok (h : m.write location value = .ok m') :
    (∃ i, cell? m.bytes.size location = some i) ∧ 0 ≤ value ∧ value ≤ 255 := by
  unfold write at h
  rw [checkOverflow_bind] at h
  split at h
  · cases h
  split at h
  · cases h
  · rename_i i hcell
    refine ⟨⟨i, hcell⟩, ?_⟩
    split at h
    · omega
    · cases h

theorem exists_write_iff :
    (∃ m', m.write location value = .ok m') ↔
      (-(m.size : Int) ≤ location ∧ location < m.size) ∧ 0 ≤ value ∧ value ≤ 255 := by
  constructor
  · rintro ⟨m', h⟩
    obtain ⟨⟨i, hcell⟩, hvalue⟩ := of_write_eq_ok h
    exact ⟨(cell?_eq_some_iff.1 hcell).1, hvalue⟩
  · rintro ⟨hlocation, hvalue⟩
    have hpos : (0 : Int) < m.size := by omega
    have hmod := Int.emod_nonneg location (Int.ne_of_gt hpos)
    have hlt := Int.emod_lt_of_pos location hpos
    have hcell : cell? m.bytes.size location = some ⟨(location % m.size).toNat, by
        unfold size at hmod hlt ⊢
        omega⟩ :=
      cell?_eq_some_iff.2 ⟨hlocation, Int.toNat_of_nonneg hmod⟩
    exact ⟨_, write_eq_of_cell? hcell hvalue⟩

theorem getElem?_of_write (h : m.write location value = .ok m') (j : Nat) :
    m'.bytes[j]? =
      if (j : Int) = location % m.size then some (UInt8.ofNat value.toNat) else m.bytes[j]? := by
  obtain ⟨⟨i, hcell⟩, hvalue⟩ := of_write_eq_ok h
  rw [write_eq_of_cell? hcell hvalue] at h
  cases h
  have hi : ((i : Nat) : Int) = location % m.size := (cell?_eq_some_iff.1 hcell).2
  rw [Array.getElem?_set, ← hi]
  simp only [Int.natCast_inj, eq_comm]

/-! ## Blocks -/

theorem writeBlock_eq_ite (hblock : 0 < block.size) :
    m.writeBlock location block =
      if Fits m.size location block.size then
        .ok ⟨overwrite m.bytes (start m.size location) block.toList⟩
      else if m.size < location + block.size then
        .error (.overflow (location + block.size - 1))
      else .error .wrongLength := by
  have hempty : ¬block.isEmpty := by
    rw [Array.isEmpty_iff_size_eq_zero]
    omega
  unfold writeBlock
  rw [if_neg hempty]
  by_cases htop : m.size < location + block.size
  · -- Nothing that reaches past the top fits, so the overflow is told first.
    have hover : m.top < location + block.size - 1 := by
      unfold top
      omega
    have hfits : ¬Fits m.size location block.size := by omega
    rw [checkOverflow_bind, if_pos hover, if_neg hfits, if_pos htop]
  · have hunder : ¬m.top < location + block.size - 1 := by
      unfold top
      omega
    rw [checkOverflow_bind, if_neg hunder, replace_eq hblock (by omega), if_neg htop]

theorem exists_writeBlock_iff (hblock : 0 < block.size) :
    (∃ m', m.writeBlock location block = .ok m') ↔ Fits m.size location block.size := by
  rw [writeBlock_eq_ite hblock]
  constructor
  · rintro ⟨m', h⟩
    split at h
    · assumption
    split at h <;> cases h
  · intro hfits
    exact ⟨_, if_pos hfits⟩

theorem overwritten_of_writeBlock (hblock : 0 < block.size)
    (h : m.writeBlock location block = .ok m') : Overwritten m location block m' := by
  have hfits := (exists_writeBlock_iff hblock).1 ⟨m', h⟩
  rw [writeBlock_eq_ite hblock, if_pos hfits] at h
  cases h
  exact overwritten_overwrite hfits

theorem room_of_le (h₀ : 0 ≤ count) (h : count ≤ room.bytes) :
    (Countable count ∧ Countable (count + blockOverhead)) ∧ ¬room.bytes < count := by
  have hroom := room.countable
  unfold blockOverhead at hroom
  unfold Countable blockOverhead
  omega

/-- Zeros are a block of them, as long as the bank has that many cells. -/
theorem zeroBlock_eq_writeBlock (hcount : 0 < count) (hle : count ≤ m.size)
    (hsize : m.size ≤ room.bytes) :
    m.zeroBlock room location count = m.writeBlock location (Array.replicate count.toNat 0) := by
  have hblock : ((Array.replicate count.toNat (0 : UInt8)).size : Int) = count := by
    rw [Array.size_replicate]
    omega
  have hempty : ¬(Array.replicate count.toNat (0 : UInt8)).isEmpty := by
    rw [Array.isEmpty_iff_size_eq_zero]
    omega
  obtain ⟨hcountable, hroom⟩ :=
    room_of_le (Int.le_of_lt hcount) (Int.le_trans hle (Int.ofNat_le.2 hsize))
  unfold zeroBlock writeBlock
  rw [if_neg (Decidable.not_not.2 hcountable), if_neg (by omega : ¬count < 0), if_neg hroom,
    if_neg (by omega : ¬(m.size : Int) < count), if_neg hempty, hblock]

theorem of_zeroBlock_eq_ok (h : m.zeroBlock room location count = .ok m') :
    count ≤ m.size ∧
      m.replace location (location + count) (Array.replicate count.toNat 0) = .ok m' := by
  unfold zeroBlock at h
  rw [checkOverflow_bind] at h
  split at h
  · cases h
  split at h
  · cases h
  split at h
  · cases h
  split at h
  · cases h
  split at h
  · cases h
  · exact ⟨by omega, h⟩

theorem exists_zeroBlock_iff (hcount : 0 < count) (hsize : m.size ≤ room.bytes) :
    (∃ m', m.zeroBlock room location count = .ok m') ↔ Fits m.size location count.toNat := by
  by_cases hle : count ≤ m.size
  · have hblock : 0 < (Array.replicate count.toNat (0 : UInt8)).size := by
      rw [Array.size_replicate]
      omega
    rw [zeroBlock_eq_writeBlock hcount hle hsize, exists_writeBlock_iff hblock,
      Array.size_replicate]
  · constructor
    · rintro ⟨m', h⟩
      exact absurd (of_zeroBlock_eq_ok h).1 hle
    · omega

theorem overwritten_of_zeroBlock (hcount : 0 < count) (hsize : m.size ≤ room.bytes)
    (h : m.zeroBlock room location count = .ok m') :
    Overwritten m location (Array.replicate count.toNat 0) m' := by
  rw [zeroBlock_eq_writeBlock hcount (of_zeroBlock_eq_ok h).1 hsize] at h
  refine overwritten_of_writeBlock ?_ h
  rw [Array.size_replicate]
  omega

theorem zeroBlock_size (hsize : m.size ≤ room.bytes) : m.zeroBlock room 0 m.size = .ok m.clear := by
  have htop : ¬m.top < 0 + m.size - 1 := by
    unfold top
    omega
  have hspans : Spans m.size 0 (0 + m.size)
      (Array.replicate (m.size : Int).toNat (0 : UInt8)).size := by
    unfold Spans cut
    rw [Array.size_replicate, if_neg (by omega), if_neg (by omega)]
    omega
  obtain ⟨hcountable, hroom⟩ := room_of_le (Int.natCast_nonneg m.size) (Int.ofNat_le.2 hsize)
  unfold zeroBlock
  rw [checkOverflow_bind, if_neg htop, if_neg (Decidable.not_not.2 hcountable),
    if_neg (by omega : ¬(m.size : Int) < 0), if_neg hroom, if_neg (Int.lt_irrefl _), replace,
    if_pos hspans, Int.toNat_natCast]
  have hcut : cut m.size 0 = 0 := by
    rw [cut, if_neg (Int.lt_irrefl 0)]
    omega
  have hcells : overwrite m.bytes (cut m.size 0) (Array.replicate m.size 0).toList =
      Array.replicate m.size 0 := by
    rw [hcut]
    refine Array.ext_getElem? fun j => ?_
    by_cases hj : j < m.bytes.size
    · have hin : j < m.size := hj
      rw [getElem?_overwrite _ _ _ hj, Array.length_toList, Array.size_replicate, Nat.sub_zero,
        Array.getElem?_toList, if_pos (by omega)]
    · have hout : m.size ≤ j := Nat.not_lt.1 hj
      rw [Array.getElem?_eq_none (by rw [size_overwrite]; exact hout),
        Array.getElem?_eq_none (by rw [Array.size_replicate]; exact hout)]
  rw [hcells]
  rfl

/-! ## Runs of accesses -/

inductive Access
  | resize (size : Int)
  | write (location value : Int)
  | writeBlock (location : Int) (block : Array UInt8)
  | zeroBlock (location count : Int)
  | clear
  | read (location : Int)
  | readBlock (location count : Int)

def attempt (room : Room) (m : Memory) : Access → Except Error Memory
  | .resize size => ofSize room size
  | .write location value => m.write location value
  | .writeBlock location block => m.writeBlock location block
  | .zeroBlock location count => m.zeroBlock room location count
  | .clear => .ok m.clear
  | .read location => (m.read location).map fun _ => m
  | .readBlock _ _ => .ok m

/-- The bank after an access.  A refused one leaves it. -/
def access (room : Room) (m : Memory) (a : Access) : Memory :=
  match m.attempt room a with
  | .ok m' => m'
  | .error _ => m

def after (room : Room) (m : Memory) (as : List Access) : Memory := as.foldl (access room) m

def Access.newSize? (room : Room) : Access → Option Nat
  | .resize size => if 0 ≤ size ∧ size ≤ room.bytes then some size.toNat else none
  | _ => none

theorem ofSize_eq_ok_iff {size : Int} :
    ofSize room size = .ok m ↔ (0 ≤ size ∧ size ≤ room.bytes) ∧ m = blank size.toNat := by
  rw [← checkSize_eq_ok_iff]
  unfold ofSize
  cases checkSize room size with
  | error e =>
    constructor
    · rintro ⟨⟩
    · rintro ⟨⟨⟩, -⟩
  | ok u =>
    constructor
    · rintro ⟨⟩
      exact ⟨rfl, rfl⟩
    · rintro ⟨-, rfl⟩
      rfl

theorem size_replace {first last : Int} (h : m.replace first last block = .ok m') :
    m'.size = m.size := by
  unfold replace at h
  split at h
  · cases h
    exact size_overwrite ..
  · cases h

theorem size_writeBlock (h : m.writeBlock location block = .ok m') : m'.size = m.size := by
  unfold writeBlock at h
  split at h
  · cases h
    rfl
  rw [checkOverflow_bind] at h
  split at h
  · cases h
  · exact size_replace h

theorem size_of_attempt {a : Access} (h : m.attempt room a = .ok m') :
    m'.size = (a.newSize? room).getD m.size := by
  cases a with
  | resize size =>
    obtain ⟨hsize, rfl⟩ := ofSize_eq_ok_iff.1 h
    rw [size_blank, Access.newSize?, if_pos hsize, Option.getD_some]
  | write location value => exact size_write h
  | writeBlock location block => exact size_writeBlock h
  | zeroBlock location count => exact size_replace (of_zeroBlock_eq_ok h).2
  | clear =>
    cases h
    exact size_clear m
  | read location =>
    rw [attempt] at h
    cases hread : m.read location with
    | error e =>
      rw [hread] at h
      cases h
    | ok byte =>
      rw [hread] at h
      cases h
      rfl
  | readBlock location count =>
    cases h
    rfl

theorem newSize?_of_refused {a : Access} {e : Error} (h : m.attempt room a = .error e) :
    a.newSize? room = none := by
  cases a with
  | resize size =>
    refine if_neg fun hsize => ?_
    have hok : ofSize room size = .ok (blank size.toNat) := ofSize_eq_ok_iff.2 ⟨hsize, rfl⟩
    cases hok.symm.trans h
  | _ => rfl

theorem size_access (room : Room) (m : Memory) (a : Access) :
    (m.access room a).size = (a.newSize? room).getD m.size := by
  unfold access
  split
  · rename_i h
    exact size_of_attempt h
  · rename_i h
    rw [newSize?_of_refused h, Option.getD_none]

theorem size_after (room : Room) (m : Memory) (as : List Access) :
    (m.after room as).size = (as.filterMap (Access.newSize? room)).getLastD m.size := by
  induction as generalizing m with
  | nil => rfl
  | cons a rest ih =>
    rw [after, List.foldl_cons, ← after, ih, size_access, List.filterMap_cons]
    cases a.newSize? room with
    | none => rfl
    | some size => rw [List.getLastD_cons, Option.getD_some]

/-- No bank outgrows what a host keeps. -/
theorem size_after_le (hm : m.size ≤ room.bytes) (as : List Access) :
    (m.after room as).size ≤ room.bytes := by
  induction as generalizing m with
  | nil => exact hm
  | cons a rest ih =>
    refine ih ?_
    rw [size_access]
    cases a with
    | resize size =>
      rw [Access.newSize?]
      split
      · rw [Option.getD_some]
        omega
      · exact hm
    | _ => exact hm

/-- What a bank accepts, what that changes, and that nothing else changes it. -/
structure Exact (room : Room) (m : Memory) : Prop where
  size : m.bytes.size = m.size ∧ (m.size : Int) = m.top + 1
  refused : ∀ (a : Access) (e : Error), m.attempt room a = .error e → m.access room a = m
  write : ∀ location value : Int, (∃ m', m.write location value = .ok m') ↔
    (-(m.size : Int) ≤ location ∧ location < m.size) ∧ 0 ≤ value ∧ value ≤ 255
  written : ∀ (location value : Int) (m' : Memory), m.write location value = .ok m' →
    m'.size = m.size ∧ ∀ j : Nat, m'.bytes[j]? =
      if (j : Int) = location % m.size then some (UInt8.ofNat value.toNat) else m.bytes[j]?
  writeBlock : ∀ (location : Int) (block : Array UInt8), 0 < block.size →
    ((∃ m', m.writeBlock location block = .ok m') ↔ Fits m.size location block.size)
  blockWritten : ∀ (location : Int) (block : Array UInt8) (m' : Memory), 0 < block.size →
    m.writeBlock location block = .ok m' →
      Overwritten m location block m' ∧ m'.readBlock location block.size = block
  blockRefused : ∀ (location : Int) (block : Array UInt8), 0 < block.size →
    ¬Fits m.size location block.size → m.writeBlock location block =
      .error (if m.size < location + block.size then .overflow (location + block.size - 1)
        else .wrongLength)
  emptyBlock : ∀ location : Int, m.writeBlock location #[] = .ok m
  zeroBlock : ∀ location count : Int, 0 < count →
    ((∃ m', m.zeroBlock room location count = .ok m') ↔ Fits m.size location count.toNat)
  zeroed : ∀ (location count : Int) (m' : Memory), 0 < count →
    m.zeroBlock room location count = .ok m' →
      Overwritten m location (Array.replicate count.toNat 0) m'
  cleared : m.zeroBlock room 0 m.size = .ok m.clear

theorem exact_of_le (hm : m.size ≤ room.bytes) : Exact room m where
  size := by
    unfold top
    exact ⟨rfl, by omega⟩
  refused a e h := by
    unfold access
    rw [h]
  write location value := exists_write_iff
  written location value m' h := ⟨size_write h, getElem?_of_write h⟩
  writeBlock location block hblock := exists_writeBlock_iff hblock
  blockWritten location block m' hblock h := by
    have hwritten := overwritten_of_writeBlock hblock h
    exact ⟨hwritten, hwritten.readBlock_eq hblock ((exists_writeBlock_iff hblock).1 ⟨m', h⟩)⟩
  blockRefused location block hblock hfits := by
    rw [writeBlock_eq_ite hblock, if_neg hfits]
    split <;> rfl
  emptyBlock location := rfl
  zeroBlock location count hcount := exists_zeroBlock_iff hcount hm
  zeroed location count m' hcount h := overwritten_of_zeroBlock hcount hm h
  cleared := zeroBlock_size hm

/-- Whatever room the host has, it has a bank of every size that fits in it, and a bank is exact
after any run of accesses and has the size that it was last given. -/
theorem exact_after_accesses (room : Room) (n : Int) :
    ((∃ m, ofSize room n = .ok m) ↔ 0 ≤ n ∧ n ≤ room.bytes) ∧
      ∀ (m : Memory) (as : List Access), ofSize room n = .ok m →
        (m.after room as).size = (as.filterMap (Access.newSize? room)).getLastD n.toNat ∧
          Exact room (m.after room as) := by
  constructor
  · constructor
    · rintro ⟨m, h⟩
      exact (ofSize_eq_ok_iff.1 h).1
    · intro h
      exact ⟨_, ofSize_eq_ok_iff.2 ⟨h, rfl⟩⟩
  · intro m as h
    obtain ⟨hn, rfl⟩ := ofSize_eq_ok_iff.1 h
    refine ⟨?_, exact_of_le (size_after_le ?_ as)⟩
    · rw [size_after, size_blank]
    · rw [size_blank]
      omega

/-- In three cells the last cell is written as the one before the first, but a block is not: it
would end at the start of the bank.  Two cells that end before the last are written, and a refused
size leaves them. -/
theorem exact_of_three_cells :
    ofSize .gigabyte 3 = .ok (blank 3) ∧
      ((blank 3).after .gigabyte [.writeBlock (-3) #[7, 8], .resize (-1), .read 3]).size = 3 ∧
      (∃ m, ((blank 3).after .gigabyte [.writeBlock (-3) #[7, 8]]).write (-1) 9 = .ok m) ∧
      ((blank 3).after .gigabyte [.writeBlock (-3) #[7, 8]]).writeBlock (-1) #[9] =
        .error .wrongLength ∧
      ∃ m, (blank 3).writeBlock (-3) #[7, 8] = .ok m ∧ m.readBlock (-3) 2 = #[7, 8] := by
  have hthree : ofSize .gigabyte 3 = .ok (blank 3) := rfl
  obtain ⟨-, hruns⟩ := exact_after_accesses .gigabyte 3
  obtain ⟨hsize, -⟩ := hruns (blank 3) [.writeBlock (-3) #[7, 8], .resize (-1), .read 3] hthree
  obtain ⟨hwritten, hexact⟩ := hruns (blank 3) [.writeBlock (-3) #[7, 8]] hthree
  obtain ⟨-, hblank⟩ := hruns (blank 3) [] hthree
  obtain ⟨m, hm⟩ := (hblank.writeBlock (-3) #[7, 8] (by decide)).2 (by decide)
  refine ⟨hthree, hsize, ?_, ?_, m, hm, (hblank.blockWritten _ _ m (by decide) hm).2⟩
  · refine (hexact.write (-1) 9).2 ?_
    rw [hwritten]
    decide
  · have hrefused := hexact.blockRefused (-1) #[9] (by decide)
    rw [hwritten] at hrefused
    exact hrefused (by decide)

end Chip8.Memory
