import Chip8.Proofs.Effect

/-!
# Footprints

What a cycle that goes through may change, read off from the instruction that it executed, and where
the machine goes on after it.  The bytes that an instruction may write are given by their distance
from the index, so that they wrap around; the registers by their numbers.
-/

namespace Chip8

namespace Instruction

/-- Whether an instruction may write the byte at a distance from the index. -/
def Stores (k : Nat) : Instruction → Prop
  | .storeDecimal _ => k ≤ 2
  | .storeRegisters x => k ≤ x
  | _ => False

/-- Whether an instruction may write a register, on a machine where adding to the index sets the
flag register or does not. -/
def Writes (indexOverflow : Bool) (r : Nibble) : Instruction → Prop
  | .loadByte x _ => r = x
  | .addByte x _ => r = x
  | .load x _ => r = x
  | .or x _ => r = x
  | .and x _ => r = x
  | .xor x _ => r = x
  | .random x _ => r = x
  | .readDelay x => r = x
  | .awaitKey x => r = x
  | .add x _ => r = x ∨ r = Machine.flagRegister
  | .sub x _ => r = x ∨ r = Machine.flagRegister
  | .shiftRight x => r = x ∨ r = Machine.flagRegister
  | .subFrom x _ => r = x ∨ r = Machine.flagRegister
  | .shiftLeft x => r = x ∨ r = Machine.flagRegister
  | .draw _ _ _ => r = Machine.flagRegister
  | .addIndex _ => indexOverflow = true ∧ r = Machine.flagRegister
  | .loadRegisters x => (r : Nat) ≤ x
  | _ => False

def draws : Instruction → Nat
  | .random _ _ => 1
  | _ => 0

end Instruction

namespace Machine

variable {m n : Machine Grid} {i : Instruction}

/-- Where a machine goes on after an instruction, given whether it waits for a key then.  Nothing is
there to return to without a call. -/
def landing (m : Machine Grid) (waiting : Bool) : Instruction → Option Int
  | .jump a => some a
  | .call a => some a
  | .ret => m.stack.items.head?
  | .jumpOffset a => some (wrapAddress ((m.get (Nibble.ofNat 0)).toNat + a))
  | .awaitKey _ => some (if waiting then m.pc else wrapAddress (m.pc + 2))
  | i => some (wrapAddress (m.pc + if i.skips m.get m.keypad.down then 4 else 2))

/-- What an instruction changes at most between two machines, and where the second one goes on. -/
structure Footprint (m : Machine Grid) (i : Instruction) (n : Machine Grid) : Prop where
  memory : ∀ j : Nat, (∀ k : Nat, i.Stores k → (j : Int) ≠ wrapAddress (m.index + k)) →
    n.memory.bytes[j]? = m.memory.bytes[j]?
  stack : i ≠ .ret → (∀ a, i ≠ .call a) → n.stack = m.stack
  call : ∀ a, i = .call a → n.stack.toList = m.stack.toList ++ [wrapAddress (m.pc + 2)]
  ret : i = .ret → m.stack.toList = n.stack.toList ++ [n.pc]
  delay : (∀ x, i ≠ .setDelay x) → n.timers.delay = m.timers.delay
  sound : (∀ x, i ≠ .setSound x) → n.timers.sound = m.timers.sound
  display : i ≠ .clear → (∀ x y rows, i ≠ .draw x y rows) → n.display = m.display
  index : (∀ a, i ≠ .loadIndex a) → (∀ x, i ≠ .addIndex x) → (∀ x, i ≠ .loadGlyph x) →
    n.index = m.index
  down : n.keypad.down = m.keypad.down
  latched : (∀ x, i ≠ .awaitKey x) → n.keypad.latched = m.keypad.latched
  awaiting : (∀ x, i ≠ .awaitKey x) → n.awaiting = m.awaiting
  random : n.random = { m.random with drawn := m.random.drawn + i.draws }
  registers : ∀ r, ¬i.Writes m.indexOverflow r → n.get r = m.get r
  pc : m.landing n.awaiting i = some n.pc

/-! ## Memory -/

theorem getElem?_putEach_addresses {ρ : Type} (m : Machine ρ) (bytes : List UInt8) {j : Nat}
    (hj : ∀ k, k < bytes.length → (j : Int) ≠ wrapAddress (m.index + k)) :
    (m.memory.putEach ((m.addresses bytes.length).zip bytes)).bytes[j]? = m.memory.bytes[j]? := by
  apply Memory.getElem?_putEach
  intro w hw heq
  have hmem := (List.of_mem_zip hw).1
  simp only [addresses, List.mem_map, List.mem_range] at hmem
  obtain ⟨k, hk, hwrap⟩ := hmem
  apply hj k hk
  rw [hwrap]
  have := (isAddress_wrapAddress (m.index + k)).1
  omega

theorem length_registersTo (x : Nibble) : (registersTo x).length = x + 1 := by
  have := x.isLt
  simp only [registersTo, List.length_take, List.length_finRange]
  omega

theorem getElem?_memoryAfter {j : Nat}
    (hj : ∀ k : Nat, i.Stores k → (j : Int) ≠ wrapAddress (m.index + k)) :
    (m.memoryAfter i).bytes[j]? = m.memory.bytes[j]? := by
  cases i with
  | storeDecimal x =>
    apply getElem?_putEach_addresses
    intro k hk
    exact hj k (Nat.le_of_lt_succ hk)
  | storeRegisters x =>
    apply getElem?_putEach_addresses
    intro k hk
    rw [List.length_map, length_registersTo] at hk
    exact hj k (Nat.le_of_lt_succ hk)
  | _ => rfl

/-! ## Registers -/

theorem get_set {ρ : Type} (m : Machine ρ) (x : Nibble) (value : UInt8) :
    (m.set x value).get x = value := by
  unfold get set
  rw [Nibble.get_update, if_pos rfl]

theorem get_set_of_ne {ρ : Type} {m : Machine ρ} {x r : Nibble} (h : r ≠ x) (value : UInt8) :
    (m.set x value).get r = m.get r := by
  unfold get set
  rw [Nibble.get_update, if_neg (Ne.symm h)]

theorem get_flag_of_ne {ρ : Type} {m : Machine ρ} {r : Nibble} (h : r ≠ flagRegister) (on : Bool) :
    (m.flag on).get r = m.get r :=
  get_set_of_ne h _

theorem get_set_flag {ρ : Type} {m : Machine ρ} {x r : Nibble} (h : ¬(r = x ∨ r = flagRegister))
    (value : UInt8) (on : Bool) : ((m.set x value).flag on).get r = m.get r := by
  obtain ⟨hx, hflag⟩ := not_or.1 h
  rw [get_flag_of_ne hflag, get_set_of_ne hx]

theorem get_setEach {ρ : Type} {m : Machine ρ} {values : List (Nibble × UInt8)} {r : Nibble}
    (h : ∀ p ∈ values, r ≠ p.1) : (m.setEach values).get r = m.get r := by
  induction values generalizing m with
  | nil => rfl
  | cons value rest ih =>
    have hrest : ∀ p ∈ rest, r ≠ p.1 := fun p hp => h p (List.mem_cons_of_mem _ hp)
    rw [setEach, ih hrest, get_set_of_ne (h value List.mem_cons_self)]

theorem le_of_mem_registersTo {x r : Nibble} (h : r ∈ registersTo x) : (r : Nat) ≤ x := by
  unfold registersTo at h
  obtain ⟨k, hk, hr⟩ := List.mem_take_iff_getElem.1 h
  rw [List.getElem_finRange] at hr
  rw [← hr]
  simp only [Fin.val_cast]
  omega

theorem get_addIndex {x r : Nibble} (h : ¬(m.indexOverflow = true ∧ r = flagRegister)) :
    (m.addIndex x).get r = m.get r := by
  unfold addIndex
  dsimp only
  split
  · rename_i hoverflow
    have hr : r ≠ flagRegister := fun hr => h ⟨hoverflow, hr⟩
    exact get_flag_of_ne hr _
  · rfl

theorem get_awaitKey {x r : Nibble} (h : r ≠ x) : (m.awaitKey x).get r = m.get r := by
  unfold awaitKey
  split
  · split
    · rfl
    · exact get_set_of_ne h _
  · rfl

theorem get_registersAfter {r : Nibble} (h : ¬i.Writes m.indexOverflow r) :
    (m.registersAfter i).get r = m.v.get r := by
  cases i with
  | loadByte x b => exact get_set_of_ne h _
  | addByte x b => exact get_set_of_ne h _
  | load x y => exact get_set_of_ne h _
  | or x y => exact get_set_of_ne h _
  | and x y => exact get_set_of_ne h _
  | xor x y => exact get_set_of_ne h _
  | random x mask => exact get_set_of_ne h _
  | readDelay x => exact get_set_of_ne h _
  | awaitKey x => exact get_awaitKey h
  | add x y => exact get_set_flag h _ _
  | sub x y => exact get_set_flag h _ _
  | shiftRight x => exact get_set_flag h _ _
  | subFrom x y => exact get_set_flag h _ _
  | shiftLeft x => exact get_set_flag h _ _
  | draw x y rows => exact get_flag_of_ne h _
  | addIndex x => exact get_addIndex h
  | loadRegisters x =>
    apply get_setEach
    rintro p hp rfl
    exact h (le_of_mem_registersTo (List.of_mem_zip hp).1)
  | _ => rfl

/-! ## Calls, returns and the next address -/

theorem pc_onward (m : Machine Grid) (condition : Bool) :
    wrapAddress (m.pc + if condition then 4 else 2) =
      if condition then wrapAddress (wrapAddress (m.pc + 2) + 2) else wrapAddress (m.pc + 2) := by
  cases condition with
  | false => rfl
  | true => exact (wrapAddress_onward m.pc).symm

theorem landing_eq (h : Sound m) {word : Word}
    (he : (m.takeUp word).stackError? i = none) :
    m.landing ((m.takeUp word).awaitingAfter i) i =
      some ((m.takeUp word).pcAfter i) := by
  cases i with
  | jump a => rfl
  | call a => rfl
  | ret =>
    obtain ⟨item, rest, hitems⟩ := exists_items_of_ret he
    have hitems' : m.stack.items = item :: rest := hitems
    unfold landing pcAfter
    dsimp only
    rw [hitems, hitems', List.head?_cons, List.headD_cons]
  | jumpOffset a => rfl
  | awaitKey x =>
    have hback : wrapAddress ((m.takeUp word).pc - 2) = m.pc := wrapAddress_back h.pc
    unfold landing awaitingAfter pcAfter
    rw [hback]
    cases (m.takeUp word).served <;> rfl
  | _ => exact congrArg some (pc_onward m _)

/-! ## Instructions and cycles -/

theorem footprint_executed (h : Sound m) {word : Word}
    (he : (m.takeUp word).stackError? i = none) :
    Footprint m i ((m.takeUp word).executed i) where
  memory := fun _ hj => getElem?_memoryAfter (m := m.takeUp word) hj
  stack := by
    intro hret hcall
    cases i with
    | ret => exact absurd rfl hret
    | call a => exact absurd rfl (hcall a)
    | _ => rfl
  call := by
    rintro a rfl
    simp only [executed, stackAfter, CallStack.toList, List.reverse_cons]
    rfl
  ret := by
    rintro rfl
    obtain ⟨item, rest, hitems⟩ := exists_items_of_ret he
    have hitems' : m.stack.items = item :: rest := hitems
    simp only [executed, stackAfter, pcAfter, CallStack.toList, hitems, hitems', List.tail_cons,
      List.headD_cons, List.reverse_cons]
  delay := by
    intro hi
    cases i with
    | setDelay x => exact absurd rfl (hi x)
    | _ => rfl
  sound := by
    intro hi
    cases i with
    | setSound x => exact absurd rfl (hi x)
    | _ => rfl
  display := by
    intro hclear hdraw
    cases i with
    | clear => exact absurd rfl hclear
    | draw x y rows => exact absurd rfl (hdraw x y rows)
    | _ => rfl
  index := by
    intro hload hadd hglyph
    cases i with
    | loadIndex a => exact absurd rfl (hload a)
    | addIndex x => exact absurd rfl (hadd x)
    | loadGlyph x => exact absurd rfl (hglyph x)
    | _ => rfl
  down := by
    cases i with
    | awaitKey x =>
      simp only [executed, keypadAfter]
      split <;> rfl
    | _ => rfl
  latched := by
    intro hi
    cases i with
    | awaitKey x => exact absurd rfl (hi x)
    | _ => rfl
  awaiting := by
    intro hi
    cases i with
    | awaitKey x => exact absurd rfl (hi x)
    | _ => rfl
  random := by cases i <;> rfl
  registers := fun _ hr => get_registersAfter (m := m.takeUp word) hr
  pc := landing_eq h he

/-- A cycle that goes through executes the instruction that the word at the next address stands for,
and keeps within the footprint of that instruction. -/
theorem cycle_within_footprint (hm : Reachable m) (hr : m.cycle.result = .ok i) :
    m.fetch = .ok m.upcoming ∧ Instruction.ofWord? m.upcoming = some i ∧
      Footprint m i m.cycle.machine := by
  have h := hm.legal.toSound
  obtain ⟨-, hw, he, hmachine⟩ := cycle_of_result h hr
  refine ⟨fetch_eq h, hw, ?_⟩
  rw [hmachine]
  exact footprint_executed h he

/-- Two registers that are stored from the last address on: the second byte goes to the first
address, and no other byte is touched. -/
theorem footprint_of_store_across_end :
    Reachable ((usual.loaded #[0xAF, 0xFF, 0xF1, 0x55]).after [.cycle]) ∧
      ((usual.loaded #[0xAF, 0xFF, 0xF1, 0x55]).after [.cycle]).cycle.result =
        .ok (.storeRegisters 1) ∧
      Footprint ((usual.loaded #[0xAF, 0xFF, 0xF1, 0x55]).after [.cycle]) (.storeRegisters 1)
        ((usual.loaded #[0xAF, 0xFF, 0xF1, 0x55]).after [.cycle]).cycle.machine ∧
      ∀ j, j ≠ 0xFFF → j ≠ 0x000 →
        ((usual.loaded #[0xAF, 0xFF, 0xF1, 0x55]).after [.cycle, .cycle]).memory.bytes[j]? =
          ((usual.loaded #[0xAF, 0xFF, 0xF1, 0x55]).after [.cycle]).memory.bytes[j]? := by
  obtain ⟨m, heq⟩ : ∃ m, m = usual.loaded #[0xAF, 0xFF, 0xF1, 0x55] := ⟨_, rfl⟩
  rw [← heq]
  have hsize : (#[0xAF, 0xFF, 0xF1, 0x55] : Array UInt8).size ≤ programLimit := by decide
  have hm : Running #[0xAF, 0xFF, 0xF1, 0x55] 0 m := by
    rw [heq]
    exact running_loaded hsize
  have hload : Instruction.ofWord? m.upcoming = some (.loadIndex 0xFFF) := by
    rw [hm.upcoming_eq hsize rfl rfl]
    rfl
  have hpc : wrapAddress (m.pc + 2) = (origin + 2 : Nat) := by
    rw [hm.pc]
    rfl
  obtain ⟨hexecuted, hn⟩ := hm.cycle hload rfl rfl hpc
  have hindex : m.cycle.machine.index = 0xFFF := by
    rw [hexecuted]
    rfl
  have hafter : m.after [.cycle] = m.cycle.machine := by
    rw [after_cons, after_nil, serve_cycle]
  have htwice : m.after [.cycle, .cycle] = m.cycle.machine.cycle.machine := by
    rw [after_cons, after_cons, after_nil, serve_cycle, serve_cycle]
  rw [hafter, htwice]
  have hstore : Instruction.ofWord? m.cycle.machine.upcoming = some (.storeRegisters 1) := by
    rw [hn.upcoming_eq hsize rfl rfl]
    rfl
  have hresult : m.cycle.machine.cycle.result = .ok (.storeRegisters 1) :=
    result_eq hn.sound hn.fault hstore rfl
  have hfootprint := (cycle_within_footprint hn.reachable hresult).2.2
  refine ⟨hn.reachable, hresult, hfootprint, ?_⟩
  intro j hlast hfirst
  apply hfootprint.memory j
  intro k hk
  have hk' : k ≤ 1 := hk
  rw [hindex]
  unfold wrapAddress addressSpan
  omega

end Machine

end Chip8
