import Chip8.Text.Hex

/-!
# Banks of bytes

A bank has a fixed number of byte cells.  A location is an integer: the cells are numbered from
zero, and a location below zero counts back from the end.  A stretch of cells is cut off at both
ends of the bank, and is overwritten only by a block of just its length.  Before anything is
written, a location past the top is refused.
-/

namespace Chip8

structure Memory where
  bytes : Array UInt8
  deriving DecidableEq

namespace Memory

inductive Error
  /-- A write reaches past the top of the bank. -/
  | overflow (location : Int)
  /-- No cell has this location. -/
  | noCell
  /-- A value does not fit a cell. -/
  | notByte
  /-- The block and the stretch that it should fill differ in length. -/
  | wrongLength
  /-- No bank has fewer than no cells. -/
  | negativeSize
  /-- So many cells cannot be counted. -/
  | hugeSize
  /-- The host has no room for so many cells. -/
  | noRoom
  deriving DecidableEq, Repr

/-- Only an overflow has something to say. -/
def Error.message : Error → String
  | .overflow location => "Memory overflow at 0x" ++ Text.hex 4 location
  | _ => ""

def blank (n : Nat) : Memory := ⟨Array.replicate n 0⟩

/-- The sizes and places that a signed word of the host can count. -/
abbrev Countable (n : Int) : Prop := -9223372036854775808 ≤ n ∧ n < 9223372036854775808

/-- What a block takes up besides its bytes. -/
def blockOverhead : Int := 33

/-- The longest block that a host keeps. -/
structure Room where
  bytes : Nat
  countable : bytes + blockOverhead < 9223372036854775808

def Room.gigabyte : Room := ⟨1073741824, by decide⟩

def checkSize (room : Room) (n : Int) : Except Error Unit :=
  if ¬Countable n then .error .hugeSize
  else if n < 0 then .error .negativeSize
  else if room.bytes < n then .error .noRoom
  else .ok ()

def ofSize (room : Room) (n : Int) : Except Error Memory := do
  checkSize room n
  return blank n.toNat

def size (m : Memory) : Nat := m.bytes.size

def top (m : Memory) : Int := m.size - 1

/-- The cell at a location, in a bank of `n` cells. -/
def cell? (n : Nat) (location : Int) : Option (Fin n) :=
  if h : 0 ≤ location ∧ location < n then some ⟨location.toNat, by omega⟩
  else if h : location < 0 ∧ 0 ≤ location + n then some ⟨(location + n).toNat, by omega⟩
  else none

/-- Where a stretch is cut, in a bank of `n` cells: the location brought between the ends. -/
def cut (n : Nat) (location : Int) : Nat :=
  if location < 0 then (location + n).toNat else min location.toNat n

def read (m : Memory) (location : Int) : Except Error UInt8 :=
  match cell? m.bytes.size location with
  | some i => .ok m.bytes[i]
  | none => .error .noCell

def checkOverflow (m : Memory) (location : Int) : Except Error Unit :=
  if m.top < location then .error (.overflow location) else .ok ()

def write (m : Memory) (location value : Int) : Except Error Memory := do
  m.checkOverflow location
  match cell? m.bytes.size location with
  | none => throw .noCell
  | some i =>
    if 0 ≤ value ∧ value < 256 then return ⟨m.bytes.set i (UInt8.ofNat value.toNat) i.isLt⟩
    else throw .notByte

/-- The stretch of `count` cells from a location, as far as the bank has it. -/
def readBlock (m : Memory) (location count : Int) : Array UInt8 :=
  m.bytes.extract (cut m.size location) (cut m.size (location + count))

/-- Whether the stretch between two locations has `count` cells, in a bank of `n` cells. -/
abbrev Spans (n : Nat) (first last : Int) (count : Nat) : Prop :=
  cut n last - cut n first = count

def overwrite (cells : Array UInt8) (start : Nat) : List UInt8 → Array UInt8
  | [] => cells
  | byte :: rest => overwrite (cells.setIfInBounds start byte) (start + 1) rest

def replace (m : Memory) (first last : Int) (block : Array UInt8) : Except Error Memory :=
  if Spans m.size first last block.size then
    .ok ⟨overwrite m.bytes (cut m.size first) block.toList⟩
  else .error .wrongLength

/-- An empty block is written anywhere, to no effect. -/
def writeBlock (m : Memory) (location : Int) (block : Array UInt8) : Except Error Memory :=
  if block.isEmpty then .ok m
  else do
    m.checkOverflow (location + block.size - 1)
    m.replace location (location + block.size) block

def zeroBlock (room : Room) (m : Memory) (location count : Int) : Except Error Memory := do
  m.checkOverflow (location + count - 1)
  if ¬(Countable count ∧ Countable (count + blockOverhead)) then throw .hugeSize
  else if count < 0 then throw .negativeSize
  else if room.bytes < count then throw .noRoom
  else if m.size < count then throw .wrongLength
  else m.replace location (location + count) (Array.replicate count.toNat 0)

def clear (m : Memory) : Memory := blank m.size

/-- The bytes at the given locations, up to the first that cannot be read. -/
def readEach (m : Memory) : List Int → List UInt8 × Option Error
  | [] => ([], none)
  | location :: rest =>
    match m.read location with
    | .error e => ([], some e)
    | .ok byte =>
      let (bytes, failure) := m.readEach rest
      (byte :: bytes, failure)

/-- The bank after the given writes, up to the first that fails. -/
def writeEach (m : Memory) : List (Int × UInt8) → Memory × Option Error
  | [] => (m, none)
  | (location, byte) :: rest =>
    match m.write location byte.toNat with
    | .error e => (m, some e)
    | .ok m' => m'.writeEach rest

@[simp] theorem size_blank (n : Nat) : (blank n).size = n := by
  simp [blank, size]

@[simp] theorem size_clear (m : Memory) : m.clear.size = m.size := by
  simp [clear]

theorem checkSize_eq_ok_iff {room : Room} {n : Int} :
    checkSize room n = .ok () ↔ 0 ≤ n ∧ n ≤ room.bytes := by
  have hroom := room.countable
  unfold blockOverhead at hroom
  unfold checkSize Countable
  split
  · exact iff_of_false nofun (by omega)
  split
  · exact iff_of_false nofun (by omega)
  split
  · exact iff_of_false nofun (by omega)
  · exact iff_of_true rfl (by omega)

theorem countable_of_checkSize {room : Room} {n : Int} (h : checkSize room n = .ok ()) :
    Countable n := by
  unfold checkSize at h
  split at h
  · cases h
  · rename_i hn
    exact Decidable.not_not.1 hn

theorem checkOverflow_bind {α : Type} (m : Memory) (location : Int) (next : Unit → Except Error α) :
    (m.checkOverflow location >>= next) =
      if m.top < location then .error (.overflow location) else next () := by
  unfold checkOverflow
  split <;> rfl

@[simp] theorem size_overwrite (cells : Array UInt8) (start : Nat) (block : List UInt8) :
    (overwrite cells start block).size = cells.size := by
  induction block generalizing cells start with
  | nil => rfl
  | cons byte rest ih => simp [overwrite, ih]

theorem getElem?_overwrite (cells : Array UInt8) (start : Nat) (block : List UInt8) {i : Nat}
    (h : i < cells.size) :
    (overwrite cells start block)[i]? =
      if start ≤ i ∧ i < start + block.length then block[i - start]? else cells[i]? := by
  induction block generalizing cells start with
  | nil =>
    have hout : ¬(start ≤ i ∧ i < start + 0) := by omega
    simp only [overwrite, List.length_nil, if_neg hout]
  | cons byte rest ih =>
    rw [overwrite, ih _ _ (by simpa using h), Array.getElem?_setIfInBounds, List.length_cons]
    by_cases hi : start = i
    · subst hi
      rw [if_neg (by omega), if_pos rfl, if_pos h, if_pos (by omega), Nat.sub_self,
        List.getElem?_cons_zero]
    · by_cases hin : start + 1 ≤ i ∧ i < start + 1 + rest.length
      · rw [if_pos hin, if_pos (by omega), show i - start = i - (start + 1) + 1 by omega,
          List.getElem?_cons_succ]
      · rw [if_neg hin, if_neg hi, if_neg (by omega)]

theorem size_write {m m' : Memory} {location value : Int} (h : m.write location value = .ok m') :
    m'.size = m.size := by
  unfold write at h
  rw [checkOverflow_bind] at h
  split at h
  · cases h
  · split at h
    · cases h
    · split at h
      · cases h
        simp only [size, Array.size_set]
      · cases h

end Memory

end Chip8
