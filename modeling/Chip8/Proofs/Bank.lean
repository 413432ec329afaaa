import Chip8.Memory

/-!
# Banks within their bounds

What reading and writing do as long as every location is one of a cell.  Nothing fails then, so
each operation is a plain function: `byteAt` looks a byte up, `put` replaces one, and a list of
writes puts one byte after the other.
-/

namespace Chip8.Memory

/-- Whether a location is that of a cell, counted from the first. -/
def Has (m : Memory) (location : Int) : Prop := 0 ≤ location ∧ location < m.size

def byteAt (m : Memory) (location : Int) : UInt8 := m.bytes[location.toNat]?.getD 0

def put (m : Memory) (location : Int) (byte : UInt8) : Memory :=
  ⟨m.bytes.setIfInBounds location.toNat byte⟩

def putEach (m : Memory) : List (Int × UInt8) → Memory
  | [] => m
  | (location, byte) :: rest => (m.put location byte).putEach rest

theorem Has.toNat_lt {m : Memory} {location : Int} (h : m.Has location) :
    location.toNat < m.bytes.size := by
  obtain ⟨h₀, h⟩ := h
  unfold size at h
  omega

theorem cell?_of_has {m : Memory} {location : Int} (h : m.Has location) :
    cell? m.bytes.size location = some ⟨location.toNat, h.toNat_lt⟩ := by
  have hb : 0 ≤ location ∧ location < m.bytes.size := h
  unfold cell?
  rw [dif_pos hb]

@[simp] theorem size_put (m : Memory) (location : Int) (byte : UInt8) :
    (m.put location byte).size = m.size := by
  simp only [put, size, Array.size_setIfInBounds]

@[simp] theorem size_putEach (m : Memory) (writes : List (Int × UInt8)) :
    (m.putEach writes).size = m.size := by
  induction writes generalizing m with
  | nil => rfl
  | cons write rest ih => rw [putEach, ih, size_put]

theorem has_put {m : Memory} {location : Int} {byte : UInt8} {other : Int} :
    (m.put location byte).Has other ↔ m.Has other := by
  unfold Has
  rw [size_put]

theorem read_eq {m : Memory} {location : Int} (h : m.Has location) :
    m.read location = .ok (m.byteAt location) := by
  unfold read byteAt
  rw [cell?_of_has h, Array.getElem?_eq_getElem h.toNat_lt]
  rfl

theorem write_eq {m : Memory} {location : Int} (h : m.Has location) (byte : UInt8) :
    m.write location byte.toNat = .ok (m.put location byte) := by
  have hbyte : (0 : Int) ≤ byte.toNat ∧ (byte.toNat : Int) < 256 := by
    have := byte.toNat_lt
    omega
  have htop : ¬m.top < location := by
    have := h.2
    unfold top
    omega
  unfold write put
  rw [checkOverflow_bind, if_neg htop, cell?_of_has h, Array.setIfInBounds, dif_pos h.toNat_lt]
  simp only [if_pos hbyte, Int.toNat_natCast, UInt8.ofNat_toNat]
  rfl

theorem readEach_eq {m : Memory} {locations : List Int} (h : ∀ a ∈ locations, m.Has a) :
    m.readEach locations = (locations.map m.byteAt, none) := by
  induction locations with
  | nil => rfl
  | cons a rest ih =>
    have hrest := ih fun b hb => h b (List.mem_cons_of_mem a hb)
    rw [readEach, read_eq (h a List.mem_cons_self)]
    simp only [hrest, List.map_cons]

theorem writeEach_eq {m : Memory} {writes : List (Int × UInt8)}
    (h : ∀ w ∈ writes, m.Has w.1) : m.writeEach writes = (m.putEach writes, none) := by
  induction writes generalizing m with
  | nil => rfl
  | cons write rest ih =>
    obtain ⟨a, byte⟩ := write
    have ha : m.Has a := h (a, byte) List.mem_cons_self
    rw [writeEach, write_eq ha]
    exact ih fun w hw => has_put.2 (h w (List.mem_cons_of_mem _ hw))

theorem getElem?_putEach {m : Memory} {writes : List (Int × UInt8)} {j : Nat}
    (h : ∀ w ∈ writes, w.1.toNat ≠ j) : (m.putEach writes).bytes[j]? = m.bytes[j]? := by
  induction writes generalizing m with
  | nil => rfl
  | cons write rest ih =>
    have hrest : ∀ w ∈ rest, w.1.toNat ≠ j := fun w hw => h w (List.mem_cons_of_mem _ hw)
    rw [putEach, ih hrest, put, Array.getElem?_setIfInBounds,
      if_neg (h write List.mem_cons_self)]

theorem writeBlock_eq {m : Memory} {location : Nat} {block : Array UInt8}
    (h : location + block.size ≤ m.size) :
    m.writeBlock location block = .ok ⟨overwrite m.bytes location block.toList⟩ := by
  unfold writeBlock
  by_cases hempty : block.isEmpty
  · have hnil : block = #[] := by simpa using hempty
    rw [if_pos hempty, hnil]
    rfl
  · have htop : ¬m.top < location + block.size - 1 := by
      unfold top
      omega
    have hfirst : cut m.size location = location := by
      rw [cut, if_neg (by omega)]
      omega
    have hlast : cut m.size (location + block.size) = location + block.size := by
      rw [cut, if_neg (by omega)]
      omega
    have hspans : Spans m.size location (location + block.size) block.size := by
      unfold Spans
      rw [hfirst, hlast]
      omega
    rw [if_neg hempty, checkOverflow_bind, if_neg htop, replace, if_pos hspans, hfirst]

end Chip8.Memory
