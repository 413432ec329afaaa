import Chip8.Proofs.Footprint
import Chip8.Proofs.Grammar

/-!
# Registers in memory

Storing registers and loading them again, and the other way round, loses nothing: the addresses from
the index on are distinct even where they wrap around, and both transfers take them in one order.
A register that is stored in decimal is loaded as its three digits.
-/

namespace Chip8

namespace Memory

/-! ## Writing and reading a list of cells -/

theorem byteAt_put_self {m : Memory} {a : Int} (ha : m.Has a) (byte : UInt8) :
    (m.put a byte).byteAt a = byte := by
  unfold put byteAt
  rw [Array.getElem?_setIfInBounds, if_pos rfl, if_pos ha.toNat_lt, Option.getD_some]

theorem put_byteAt {m : Memory} {a : Int} (ha : m.Has a) : m.put a (m.byteAt a) = m := by
  have hlt := ha.toNat_lt
  unfold put byteAt
  rw [Array.setIfInBounds, dif_pos hlt, Array.getElem?_eq_getElem hlt, Option.getD_some,
    Array.set_getElem_self]

theorem byteAt_putEach {m : Memory} {writes : List (Int × UInt8)} {a : Int}
    (h : ∀ w ∈ writes, w.1.toNat ≠ a.toNat) : (m.putEach writes).byteAt a = m.byteAt a := by
  unfold byteAt
  rw [getElem?_putEach h]

theorem map_byteAt_putEach {m : Memory} {cells : List Int} {bytes : List UInt8}
    (hhas : ∀ a ∈ cells, m.Has a) (hdistinct : cells.Nodup)
    (hlength : cells.length = bytes.length) :
    cells.map (m.putEach (cells.zip bytes)).byteAt = bytes := by
  induction cells generalizing m bytes with
  | nil => exact (List.eq_nil_of_length_eq_zero hlength.symm).symm
  | cons a rest ih =>
    obtain ⟨hout, hdistinct⟩ := List.nodup_cons.1 hdistinct
    cases bytes with
    | nil => cases hlength
    | cons byte bytes =>
      have ha : m.Has a := hhas a List.mem_cons_self
      have hrest : ∀ b ∈ rest, (m.put a byte).Has b := fun b hb =>
        has_put.2 (hhas b (List.mem_cons_of_mem a hb))
      have hother : ∀ w ∈ rest.zip bytes, w.1.toNat ≠ a.toNat := by
        intro w hw heq
        have hmem : w.1 ∈ rest := (List.of_mem_zip hw).1
        have hw₀ := (hhas w.1 (List.mem_cons_of_mem a hmem)).1
        have ha₀ := ha.1
        have : w.1 = a := by omega
        exact hout (this ▸ hmem)
      rw [List.zip_cons_cons, putEach, List.map_cons, byteAt_putEach hother, byteAt_put_self ha,
        ih hrest hdistinct (Nat.succ.inj hlength)]

theorem putEach_byteAt {m : Memory} {cells : List Int} (hhas : ∀ a ∈ cells, m.Has a) :
    m.putEach (cells.zip (cells.map m.byteAt)) = m := by
  induction cells with
  | nil => rfl
  | cons a rest ih =>
    rw [List.map_cons, List.zip_cons_cons, putEach, put_byteAt (hhas a List.mem_cons_self),
      ih fun b hb => hhas b (List.mem_cons_of_mem a hb)]

end Memory

namespace Machine

variable {ρ : Type} {m n : Machine ρ}

/-! ## Registers and addresses -/

theorem map_get_setEach {xs : List Nibble} {bytes : List UInt8} (hdistinct : xs.Nodup)
    (hlength : xs.length = bytes.length) : xs.map (m.setEach (xs.zip bytes)).get = bytes := by
  induction xs generalizing m bytes with
  | nil => exact (List.eq_nil_of_length_eq_zero hlength.symm).symm
  | cons x rest ih =>
    obtain ⟨hout, hdistinct⟩ := List.nodup_cons.1 hdistinct
    cases bytes with
    | nil => cases hlength
    | cons byte bytes =>
      have hother : ∀ p ∈ rest.zip bytes, x ≠ p.1 := by
        rintro p hp rfl
        exact hout (List.of_mem_zip hp).1
      rw [List.zip_cons_cons, setEach, List.map_cons, get_setEach hother, get_set,
        ih hdistinct (Nat.succ.inj hlength)]

theorem nodup_registersTo (x : Nibble) : (registersTo x).Nodup :=
  (List.nodup_finRange 16).sublist (List.take_sublist _ _)

theorem mem_registersTo {x r : Nibble} (h : (r : Nat) ≤ x) : r ∈ registersTo x := by
  have hr := r.isLt
  refine List.mem_take_iff_getElem.2 ⟨r, ?_, ?_⟩
  · rw [List.length_finRange]
    omega
  · rw [List.getElem_finRange]
    rfl

theorem length_addresses (m : Machine ρ) (n : Nat) : (m.addresses n).length = n := by
  rw [addresses, List.length_map, List.length_range]

theorem addresses_congr (h : n.index = m.index) : n.addresses = m.addresses := by
  unfold addresses
  rw [h]

/-- A stretch that is no longer than memory does not come back to its own start. -/
theorem nodup_addresses (m : Machine ρ) {n : Nat} (hn : n ≤ 4096) : (m.addresses n).Nodup := by
  unfold addresses
  refine List.Nodup.map_on ?_ List.nodup_range
  intro k hk l hl h
  rw [List.mem_range] at hk hl
  unfold wrapAddress addressSpan at h
  omega

/-! ## The three transfers -/

/-- What storing the registers up to `x` leaves: they are back after a load, whatever the registers
held in the meantime. -/
structure Saved (x : Nibble) (m n : Machine ρ) [Screen ρ] : Prop where
  index : n.index = m.index
  memory : ∀ j : Nat, (∀ k : Nat, k ≤ x → (j : Int) ≠ wrapAddress (m.index + k)) →
    n.memory.bytes[j]? = m.memory.bytes[j]?
  restored : ∀ v : Vector UInt8 16,
    ({ n with v }.exec (Instruction.byteWord 0xF x 0x65)).result = .ok (.loadRegisters x) ∧
      ∀ r : Nibble, (r : Nat) ≤ x →
        ({ n with v }.exec (Instruction.byteWord 0xF x 0x65)).machine.get r = m.get r

/-- What loading the registers up to `x` leaves: storing them again changes nothing. -/
structure Loaded (x : Nibble) (m n : Machine ρ) [Screen ρ] : Prop where
  index : n.index = m.index
  registers : ∀ r : Nibble, (x : Nat) < r → n.get r = m.get r
  memory : n.memory = m.memory
  stored : (n.exec (Instruction.byteWord 0xF x 0x55)).result = .ok (.storeRegisters x) ∧
    (n.exec (Instruction.byteWord 0xF x 0x55)).machine.memory = m.memory

/-- What storing the register `x` in decimal leaves: three digits, which a load of the first three
registers reads and leaves where they are. -/
structure Spelled (x : Nibble) (m n : Machine ρ) [Screen ρ] : Prop where
  index : n.index = m.index
  memory : ∀ j : Nat, (∀ k : Nat, k ≤ 2 → (j : Int) ≠ wrapAddress (m.index + k)) →
    n.memory.bytes[j]? = m.memory.bytes[j]?
  loads : (n.exec 0xF265).result = .ok (.loadRegisters 0x2) ∧
    (n.exec 0xF265).machine.memory = n.memory
  digits : ∀ r : Nibble, (r : Nat) ≤ 2 → ((n.exec 0xF265).machine.get r).toNat ≤ 9
  value : 100 * ((n.exec 0xF265).machine.get 0x0).toNat +
    10 * ((n.exec 0xF265).machine.get 0x1).toNat + ((n.exec 0xF265).machine.get 0x2).toNat =
      (m.get x).toNat

variable [Screen ρ]

theorem exec_store (hsize : memorySize ≤ m.memory.size) {i : Instruction} (bytes : List UInt8)
    (hi : (m.holding (i.encode 0 : Nat)).execute i = (m.holding (i.encode 0 : Nat)).store bytes) :
    (m.exec (i.encode 0 : Nat)).result = .ok i ∧
      (m.exec (i.encode 0 : Nat)).machine.index = m.index ∧
      (m.exec (i.encode 0 : Nat)).machine.memory =
        m.memory.putEach ((m.addresses bytes.length).zip bytes) := by
  obtain ⟨hresult, hmachine⟩ :=
    exec_encode 0 (hi.trans (store_eq (m := m.holding (i.encode 0 : Nat)) hsize bytes))
  rw [hmachine]
  exact ⟨hresult, rfl, rfl⟩

theorem exec_load (hsize : memorySize ≤ m.memory.size) (x : Nibble) :
    (m.exec (Instruction.byteWord 0xF x 0x65)).result = .ok (.loadRegisters x) ∧
      (m.exec (Instruction.byteWord 0xF x 0x65)).machine =
        (m.holding (Instruction.byteWord 0xF x 0x65)).setEach
          ((registersTo x).zip ((m.addresses (x + 1)).map m.memory.byteAt)) :=
  exec_encode (i := .loadRegisters x) 0
    (loadTo_eq (m := m.holding (Instruction.byteWord 0xF x 0x65)) hsize x)

theorem map_get_exec_load (hsize : memorySize ≤ m.memory.size) (x : Nibble) :
    (registersTo x).map (m.exec (Instruction.byteWord 0xF x 0x65)).machine.get =
      (m.addresses (x + 1)).map m.memory.byteAt := by
  rw [(exec_load hsize x).2]
  refine map_get_setEach (nodup_registersTo x) ?_
  rw [length_registersTo, List.length_map, length_addresses]

/-- What a load reads from the cells that a store wrote is what was stored. -/
theorem map_get_of_stored {memory : Memory} (hsize : memorySize ≤ memory.size)
    (bytes : List UInt8) {x : Nibble} (hlength : bytes.length = x + 1)
    (hm : m.memory = memory.putEach ((m.addresses bytes.length).zip bytes)) :
    (registersTo x).map (m.exec (Instruction.byteWord 0xF x 0x65)).machine.get = bytes := by
  have hcells : ∀ a ∈ m.addresses bytes.length, memory.Has a := fun _ ha =>
    has_of_isAddress hsize (isAddress_of_mem_addresses ha)
  have hdistinct : (m.addresses bytes.length).Nodup := by
    have := x.isLt
    exact nodup_addresses m (by omega)
  have hmsize : memorySize ≤ m.memory.size := by rwa [hm, Memory.size_putEach]
  rw [map_get_exec_load hmsize x, ← hlength, hm]
  exact Memory.map_byteAt_putEach hcells hdistinct (length_addresses m _)

theorem saved_of_stored (hsize : memorySize ≤ m.memory.size) {x : Nibble}
    (hindex : n.index = m.index)
    (hmemory : n.memory = m.memory.putEach
      ((m.addresses ((registersTo x).map m.get).length).zip ((registersTo x).map m.get))) :
    Saved x m n := by
  have hlength : ((registersTo x).map m.get).length = x + 1 := by
    rw [List.length_map, length_registersTo]
  have hnsize : memorySize ≤ n.memory.size := by rwa [hmemory, Memory.size_putEach]
  refine ⟨hindex, ?_, ?_⟩
  · intro j hj
    rw [hmemory]
    refine getElem?_putEach_addresses m _ fun k hk => hj k ?_
    omega
  · intro v
    -- The index alone tells the addresses, so the load finds the stored bytes for any registers.
    have hm : ({ n with v } : Machine ρ).addresses = m.addresses := addresses_congr hindex
    have hget := map_get_of_stored (m := { n with v }) hsize _ hlength (by rw [hm]; exact hmemory)
    refine ⟨(exec_load (m := { n with v }) hnsize x).1, fun r hr => ?_⟩
    exact List.map_inj_left.1 hget r (mem_registersTo hr)

theorem loaded_exec (hsize : memorySize ≤ m.memory.size) (x : Nibble) :
    Loaded x m (m.exec (Instruction.byteWord 0xF x 0x65)).machine := by
  have hmap := map_get_exec_load hsize x
  obtain ⟨-, hmachine⟩ := exec_load hsize x
  obtain ⟨n, hn⟩ : ∃ n, n = (m.exec (Instruction.byteWord 0xF x 0x65)).machine := ⟨_, rfl⟩
  rw [← hn] at hmap hmachine ⊢
  have hindex : n.index = m.index := by
    rw [hmachine, setEach_eq]
    rfl
  have hmemory : n.memory = m.memory := by
    rw [hmachine, setEach_eq]
    rfl
  refine ⟨hindex, ?_, hmemory, ?_⟩
  · intro r hr
    rw [hmachine]
    refine get_setEach ?_
    rintro p hp rfl
    have := le_of_mem_registersTo (List.of_mem_zip hp).1
    omega
  · have hnsize : memorySize ≤ n.memory.size := by rwa [hmemory]
    obtain ⟨hresult, -, hstored⟩ := exec_store (i := .storeRegisters x)
      hnsize ((registersTo x).map n.get) rfl
    refine ⟨hresult, hstored.trans ?_⟩
    rw [hmap, List.length_map, length_addresses, addresses_congr hindex, hmemory]
    exact Memory.putEach_byteAt fun _ ha => has_of_isAddress hsize (isAddress_of_mem_addresses ha)

theorem toNat_digits (value : UInt8) :
    (value / 100).toNat ≤ 9 ∧ (value / 10 % 10).toNat ≤ 9 ∧ (value % 10).toNat ≤ 9 ∧
      100 * (value / 100).toNat + 10 * (value / 10 % 10).toNat + (value % 10).toNat =
        value.toNat := by
  have hvalue := value.toNat_lt
  rw [UInt8.toNat_mod, UInt8.toNat_mod, UInt8.toNat_div, UInt8.toNat_div]
  simp only [UInt8.reduceToNat]
  omega

theorem spelled_of_stored (hsize : memorySize ≤ m.memory.size) {x : Nibble}
    (hindex : n.index = m.index)
    (hmemory : n.memory = m.memory.putEach
      ((m.addresses (decimalDigits (m.get x)).length).zip (decimalDigits (m.get x)))) :
    Spelled x m n := by
  have hnsize : memorySize ≤ n.memory.size := by rwa [hmemory, Memory.size_putEach]
  have hword : ((Instruction.byteWord 0xF (0x2 : Nibble) 0x65 : Nat) : Int) = 0xF265 := by decide
  have hload := (exec_load hnsize 0x2).1
  have hkept := (loaded_exec hnsize 0x2).memory
  have hget := map_get_of_stored (m := n) (x := 0x2) hsize (decimalDigits (m.get x)) rfl
    (by rw [addresses_congr hindex]; exact hmemory)
  rw [hword] at hload hkept hget
  have hregisters : registersTo 0x2 = [0x0, 0x1, 0x2] := by decide
  simp only [hregisters, decimalDigits, List.map_cons, List.map_nil, List.cons.injEq, and_true]
    at hget
  obtain ⟨h₀, h₁, h₂⟩ := hget
  obtain ⟨hd₀, hd₁, hd₂, hvalue⟩ := toNat_digits (m.get x)
  rw [← h₀, ← h₁, ← h₂] at hvalue
  rw [← h₀] at hd₀
  rw [← h₁] at hd₁
  rw [← h₂] at hd₂
  refine ⟨hindex, ?_, ⟨hload, hkept⟩, ?_, hvalue⟩
  · intro j hj
    rw [hmemory]
    refine getElem?_putEach_addresses m _ fun k hk => hj k ?_
    rw [decimalDigits] at hk
    exact Nat.le_of_lt_succ hk
  · intro r hr
    have hmem : r ∈ registersTo 0x2 := mem_registersTo hr
    rw [hregisters] at hmem
    simp only [List.mem_cons, List.not_mem_nil, or_false] at hmem
    obtain rfl | rfl | rfl := hmem
    · exact hd₀
    · exact hd₁
    · exact hd₂

/-- Wherever the index points, a store and a load in either order lose nothing, a register spelled
in decimal is loaded as its digits, and none of the three touches another cell or register. -/
theorem transfers_are_lossless (m : Machine ρ) (hsize : memorySize ≤ m.memory.size) (x : Nibble) :
    ((m.exec (Instruction.byteWord 0xF x 0x55)).result = .ok (.storeRegisters x) ∧
        Saved x m (m.exec (Instruction.byteWord 0xF x 0x55)).machine) ∧
      ((m.exec (Instruction.byteWord 0xF x 0x65)).result = .ok (.loadRegisters x) ∧
        Loaded x m (m.exec (Instruction.byteWord 0xF x 0x65)).machine) ∧
      (m.exec (Instruction.byteWord 0xF x 0x33)).result = .ok (.storeDecimal x) ∧
        Spelled x m (m.exec (Instruction.byteWord 0xF x 0x33)).machine := by
  obtain ⟨hstore, hindex, hmemory⟩ := exec_store (i := .storeRegisters x)
    hsize ((registersTo x).map m.get) rfl
  obtain ⟨hdecimal, hindex', hmemory'⟩ := exec_store (i := .storeDecimal x)
    hsize (decimalDigits (m.get x)) rfl
  exact ⟨⟨hstore, saved_of_stored hsize hindex hmemory⟩,
    ⟨(exec_load hsize x).1, loaded_exec hsize x⟩,
    hdecimal, spelled_of_stored hsize hindex' hmemory'⟩

/-- Four registers stored over the end of memory are loaded from both sides of it again, though
every register was cleared, and 254 stored there in decimal is loaded as its digits. -/
theorem transfers_over_the_end :
    memorySize ≤ usual.memory.size ∧
      (∀ r : Nibble, (r : Nat) ≤ 3 →
        ({ (({ usual with index := 0xFFE }.set 0x2 30).exec 0xF355).machine with
          v := Vector.replicate 16 0 }.exec 0xF365).machine.get r =
            ({ usual with index := 0xFFE }.set 0x2 30).get r) ∧
      [0x0, 0x1, 0x2].map ((({ usual with index := 0xFFF }.set 0xA 254).exec
        0xFA33).machine.exec 0xF265).machine.get = [2, 5, 4] := by
  have hsize : memorySize ≤ usual.memory.size := reachable_usual.legal.memorySize_le
  -- Stated for every machine first, so that the usual one is not run to compare two of its states.
  have hkept : ∀ (m : Machine Grid) (index : Int) (x : Nibble) (byte : UInt8),
      memorySize ≤ m.memory.size → memorySize ≤ ({ m with index }.set x byte).memory.size :=
    fun _ _ _ _ h => h
  have hrestored : ∀ m : Machine Grid, memorySize ≤ m.memory.size → ∀ r : Nibble, (r : Nat) ≤ 3 →
      ({ (m.exec 0xF355).machine with v := Vector.replicate 16 0 }.exec 0xF365).machine.get r =
        m.get r :=
    fun m hm => ((transfers_are_lossless m hm 0x3).1.2.restored _).2
  have hdigits : ∀ m : Machine Grid, memorySize ≤ m.memory.size → m.get 0xA = 254 →
      [0x0, 0x1, 0x2].map ((m.exec 0xFA33).machine.exec 0xF265).machine.get = [2, 5, 4] := by
    intro m hm h
    have hspelled : Spelled 0xA m (m.exec 0xFA33).machine :=
      (transfers_are_lossless m hm 0xA).2.2.2
    have h₀ := hspelled.digits 0x0 (by decide)
    have h₁ := hspelled.digits 0x1 (by decide)
    have h₂ := hspelled.digits 0x2 (by decide)
    have hvalue := hspelled.value
    have h254 : (254 : UInt8).toNat = 254 := rfl
    rw [h, h254] at hvalue
    simp only [List.map_cons, List.map_nil, List.cons.injEq, ← UInt8.toNat_inj,
      UInt8.reduceToNat, and_true]
    omega
  exact ⟨hsize, hrestored _ (hkept usual 0xFFE 0x2 30 hsize),
    hdigits _ (hkept usual 0xFFF 0xA 254 hsize) (get_set _ _ _)⟩

end Machine

end Chip8
