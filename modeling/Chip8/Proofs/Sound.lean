import Chip8.Proofs.Bank
import Chip8.Proofs.Mirror
import Chip8.Machine.Cycle

/-!
# Sound machines

The machines whose addresses have twelve bits, whose memory has a byte for each of them, whose
calls go no deeper than usual and whose screen shows the display.  On such a machine an instruction
either goes through and leaves a sound machine, or it is a call or a return that the stack refuses,
and then it leaves the machine as it was.
-/

namespace Chip8

def IsAddress (a : Int) : Prop := 0 ≤ a ∧ a < 4096

def IsWord (w : Int) : Prop := 0 ≤ w ∧ w ≤ 0xFFFF

instance (a : Int) : Decidable (IsAddress a) := inferInstanceAs (Decidable (0 ≤ a ∧ a < 4096))

theorem isAddress_wrapAddress (n : Int) : IsAddress (wrapAddress n) :=
  ⟨wrapAddress_nonneg n, wrapAddress_lt n⟩

theorem wrapAddress_back {a : Int} (ha : IsAddress a) :
    wrapAddress (wrapAddress (a + 2) - 2) = a := by
  unfold IsAddress at ha
  unfold wrapAddress addressSpan
  omega

theorem wrapAddress_onward (a : Int) :
    wrapAddress (wrapAddress (a + 2) + 2) = wrapAddress (a + 4) := by
  unfold wrapAddress addressSpan
  omega

theorem isAddress_target (a : Address) : IsAddress a := by
  unfold IsAddress
  omega

namespace Machine

structure Sound (m : Machine Grid) : Prop where
  memory : m.memory.size = memorySize
  limit : m.stack.limit = stackDepth
  depth : m.stack.depth ≤ stackDepth
  items : ∀ a ∈ m.stack.items, IsAddress a
  index : IsAddress m.index
  pc : IsAddress m.pc
  address : IsAddress m.address
  word : IsWord m.word
  fits : m.display.Fits
  mirrors : m.display.Mirrors

structure Context where
  address : Int
  word : Word
  keys : Vector Bool 16
  fault : Option Fault
  indexOverflow : Bool
  live : Bool

def context (m : Machine Grid) : Context :=
  ⟨m.address, m.word, m.keys, m.fault, m.indexOverflow, m.live⟩

variable {m : Machine Grid}

theorem has_of_isAddress {memory : Memory} (h : memorySize ≤ memory.size) {a : Int}
    (ha : IsAddress a) : memory.Has a := by
  have hsize : memorySize = 4096 := rfl
  obtain ⟨hlow, htop⟩ := ha
  exact ⟨hlow, by omega⟩

theorem Sound.memorySize_le (h : Sound m) : memorySize ≤ m.memory.size :=
  Nat.le_of_eq h.memory.symm

theorem Sound.has (h : Sound m) {a : Int} (ha : IsAddress a) : m.memory.Has a :=
  has_of_isAddress h.memorySize_le ha

theorem isAddress_of_mem_addresses {ρ : Type} {m : Machine ρ} {n : Nat} {a : Int}
    (ha : a ∈ m.addresses n) : IsAddress a := by
  simp only [addresses, List.mem_map] at ha
  obtain ⟨k, _, rfl⟩ := ha
  exact isAddress_wrapAddress _

/-! ## The word at hand -/

def upcoming (m : Machine Grid) : Int :=
  256 * (m.memory.byteAt m.pc).toNat + (m.memory.byteAt (wrapAddress (m.pc + 1))).toNat

theorem fetch_eq (h : Sound m) : m.fetch = .ok m.upcoming := by
  unfold fetch upcoming
  rw [Memory.read_eq (h.has h.pc), Memory.read_eq (h.has (isAddress_wrapAddress _))]
  rfl

theorem isWord_upcoming (m : Machine Grid) : IsWord m.upcoming := by
  have hhigh := (m.memory.byteAt m.pc).toNat_lt
  have hlow := (m.memory.byteAt (wrapAddress (m.pc + 1))).toNat_lt
  unfold IsWord upcoming
  omega

theorem Sound.takeUp (h : Sound m) : Sound (m.takeUp m.upcoming) :=
  { h with
    pc := isAddress_wrapAddress _
    address := h.pc
    word := m.isWord_upcoming }

/-! ## What single steps of an instruction keep -/

theorem Sound.registers (h : Sound m) (v : Vector UInt8 16) : Sound { m with v } := { h with }

theorem Sound.set (h : Sound m) (x : Nibble) (value : UInt8) : Sound (m.set x value) :=
  h.registers _

theorem Sound.flag (h : Sound m) (on : Bool) : Sound (m.flag on) := h.set _ _

theorem Sound.setEach (h : Sound m) (values : List (Nibble × UInt8)) :
    Sound (m.setEach values) := by
  induction values generalizing m with
  | nil => exact h
  | cons value rest ih => exact ih (h.set value.1 value.2)

theorem Sound.jump (h : Sound m) {pc : Int} (hpc : IsAddress pc) : Sound { m with pc } :=
  { h with pc := hpc }

theorem Sound.skipIf (h : Sound m) (condition : Bool) : Sound (m.skipIf condition) := by
  unfold Machine.skipIf
  split
  · exact h.jump (isAddress_wrapAddress _)
  · exact h

theorem Sound.pointAt (h : Sound m) {index : Int} (hindex : IsAddress index) :
    Sound { m with index } :=
  { h with index := hindex }

theorem Sound.addIndex (h : Sound m) (x : Nibble) : Sound (m.addIndex x) := by
  have hsum : Sound { m with index := wrapAddress (m.index + (m.get x).toNat) } :=
    h.pointAt (isAddress_wrapAddress _)
  unfold Machine.addIndex
  dsimp only
  split
  · exact hsum.flag _
  · exact hsum

theorem Sound.awaitKey (h : Sound m) (x : Nibble) : Sound (m.awaitKey x) := by
  unfold Machine.awaitKey
  split
  · split
    · exact h.jump (isAddress_wrapAddress _)
    · exact { h with }
  · exact { h with pc := isAddress_wrapAddress _ }

theorem Sound.draw_display (h : Sound m) (places : List (Int × Int)) :
    Sound { m with display := m.display.flippedEach places } :=
  { h with
    fits := h.fits.flippedEach places
    mirrors := Display.mirrors_flippedEach h.fits h.mirrors places }

theorem isAddress_glyph (b : UInt8) : IsAddress (glyphs + glyphSize * (b.toNat % 16)) := by
  unfold IsAddress glyphs glyphSize
  omega

theorem context_setEach (m : Machine Grid) (values : List (Nibble × UInt8)) :
    (m.setEach values).context = m.context := by
  induction values generalizing m with
  | nil => rfl
  | cons value rest ih => exact ih (m.set value.1 value.2)

theorem context_skipIf (m : Machine Grid) (condition : Bool) :
    (m.skipIf condition).context = m.context := by
  cases condition <;> rfl

theorem context_addIndex (m : Machine Grid) (x : Nibble) : (m.addIndex x).context = m.context := by
  unfold addIndex
  dsimp only
  split <;> rfl

theorem context_awaitKey (m : Machine Grid) (x : Nibble) : (m.awaitKey x).context = m.context := by
  unfold awaitKey
  split
  · split <;> rfl
  · rfl

/-! ## Transfers and drawing -/

theorem has_of_mem_addresses {ρ : Type} {m : Machine ρ} (h : memorySize ≤ m.memory.size) {n : Nat}
    {a : Int} (ha : a ∈ m.addresses n) : m.memory.Has a :=
  has_of_isAddress h (isAddress_of_mem_addresses ha)

theorem store_eq {ρ : Type} {m : Machine ρ} (h : memorySize ≤ m.memory.size) (bytes : List UInt8) :
    m.store bytes
      = .ok () { m with memory := m.memory.putEach ((m.addresses bytes.length).zip bytes) } := by
  have hhas : ∀ w ∈ (m.addresses bytes.length).zip bytes, m.memory.Has w.1 := by
    intro w hw
    exact has_of_mem_addresses h (List.of_mem_zip hw).1
  unfold store
  rw [Memory.writeEach_eq hhas]

theorem loadTo_eq {ρ : Type} {m : Machine ρ} (h : memorySize ≤ m.memory.size) (x : Nibble) :
    m.loadTo x = .ok ()
      (m.setEach ((registersTo x).zip ((m.addresses (x + 1)).map m.memory.byteAt))) := by
  unfold loadTo
  rw [Memory.readEach_eq fun a ha => has_of_mem_addresses h ha]

theorem Sound.store (h : Sound m) (writes : List (Int × UInt8)) :
    Sound { m with memory := m.memory.putEach writes } :=
  { h with memory := (Memory.size_putEach _ _).trans h.memory }

def spriteAt (m : Machine Grid) (x y rows : Nibble) : List (Int × Int) :=
  spritePlaces (m.get x).toNat (m.get y).toNat ((m.addresses rows).map m.memory.byteAt)

theorem draw_eq (h : Sound m) (x y rows : Nibble) :
    m.draw x y rows = .ok ()
      ({ m with display := m.display.flippedEach (m.spriteAt x y rows) }.flag
        (m.display.collides (m.spriteAt x y rows))) := by
  unfold draw
  rw [Memory.readEach_eq fun a ha => h.has (isAddress_of_mem_addresses ha)]
  dsimp only
  rw [Display.flipEach_eq h.fits]
  rfl

theorem clearDisplay_eq (h : Sound m) :
    m.clearDisplay = .ok () { m with display := m.display.darkened } := by
  unfold clearDisplay
  rw [Display.clear_eq h.fits]

/-! ## Calls and returns -/

def stackError? (m : Machine Grid) : Instruction → Option CallStack.Error
  | .ret => if m.stack.items = [] then some .underflow else none
  | .call _ => if m.stack.limit ≤ m.stack.depth then some (.overflow m.stack.limit) else none
  | _ => none

theorem execute_of_stackError {i : Instruction} {e : CallStack.Error}
    (he : m.stackError? i = some e) : m.execute i = .error (.fault (.stack e)) m := by
  unfold stackError? at he
  split at he
  · split at he
    · rename_i hitems
      cases he
      simp only [execute, CallStack.pop, hitems]
    · cases he
  · split at he
    · rename_i hfull
      cases he
      simp only [execute, CallStack.push, if_pos hfull]
    · cases he
  · cases he

theorem execute_ret (h : Sound m) (he : m.stackError? .ret = none) :
    ∃ n, m.execute .ret = .ok () n ∧ Sound n ∧ n.context = m.context := by
  unfold stackError? at he
  cases hitems : m.stack.items with
  | nil => simp [hitems] at he
  | cons item rest =>
    have hitem : IsAddress item := h.items item (by simp [hitems])
    have hpop : m.stack.pop = .ok (item, { m.stack with items := rest }) := by
      unfold CallStack.pop
      rw [hitems]
    have hdepth : rest.length ≤ stackDepth := by
      have := h.depth
      simp only [CallStack.depth, hitems, List.length_cons] at this
      omega
    refine ⟨{ m with pc := item, stack := { m.stack with items := rest } }, ?_, ?_, rfl⟩
    · simp only [execute, hpop]
    · exact { h with
        depth := hdepth
        items := fun a ha => h.items a (by simp [hitems, ha])
        pc := hitem }

theorem execute_call (h : Sound m) {a : Address} (he : m.stackError? (.call a) = none) :
    ∃ n, m.execute (.call a) = .ok () n ∧ Sound n ∧ n.context = m.context := by
  have hroom : ¬m.stack.limit ≤ m.stack.depth := by
    intro hfull
    simp [stackError?, hfull] at he
  have hdepth : m.stack.depth + 1 ≤ stackDepth := by
    have := h.limit
    omega
  have hexecute : m.execute (.call a) =
      .ok () { m with pc := a, stack := { m.stack with items := m.pc :: m.stack.items } } := by
    simp only [execute, CallStack.push, if_neg hroom]
  have hitems : ∀ b ∈ m.pc :: m.stack.items, IsAddress b := by
    intro b hb
    rcases List.mem_cons.1 hb with rfl | hb
    · exact h.pc
    · exact h.items b hb
  exact ⟨_, hexecute, { h with depth := hdepth, items := hitems, pc := isAddress_target a }, rfl⟩

/-! ## Instructions that go through -/

/-- An instruction that the stack does not refuse goes through and leaves a sound machine. -/
theorem execute_of_sound (h : Sound m) {i : Instruction} (he : m.stackError? i = none) :
    ∃ n, m.execute i = .ok () n ∧ Sound n ∧ n.context = m.context := by
  cases i with
  | clear =>
    refine ⟨_, clearDisplay_eq h, ?_, rfl⟩
    exact { h with fits := h.fits.darkened, mirrors := Display.mirrors_darkened _ }
  | ret => exact execute_ret h he
  | jump a => exact ⟨_, rfl, h.jump (isAddress_target a), rfl⟩
  | call a => exact execute_call h he
  | skipEqByte x b => exact ⟨_, rfl, h.skipIf _, context_skipIf _ _⟩
  | skipNeByte x b => exact ⟨_, rfl, h.skipIf _, context_skipIf _ _⟩
  | skipEq x y => exact ⟨_, rfl, h.skipIf _, context_skipIf _ _⟩
  | loadByte x b => exact ⟨_, rfl, h.set _ _, rfl⟩
  | addByte x b => exact ⟨_, rfl, h.set _ _, rfl⟩
  | load x y => exact ⟨_, rfl, h.set _ _, rfl⟩
  | or x y => exact ⟨_, rfl, h.set _ _, rfl⟩
  | and x y => exact ⟨_, rfl, h.set _ _, rfl⟩
  | xor x y => exact ⟨_, rfl, h.set _ _, rfl⟩
  | add x y => exact ⟨_, rfl, (h.set _ _).flag _, rfl⟩
  | sub x y => exact ⟨_, rfl, (h.set _ _).flag _, rfl⟩
  | shiftRight x => exact ⟨_, rfl, (h.set _ _).flag _, rfl⟩
  | subFrom x y => exact ⟨_, rfl, (h.set _ _).flag _, rfl⟩
  | shiftLeft x => exact ⟨_, rfl, (h.set _ _).flag _, rfl⟩
  | skipNe x y => exact ⟨_, rfl, h.skipIf _, context_skipIf _ _⟩
  | loadIndex a => exact ⟨_, rfl, h.pointAt (isAddress_target a), rfl⟩
  | jumpOffset a => exact ⟨_, rfl, h.jump (isAddress_wrapAddress _), rfl⟩
  | random x mask => exact ⟨_, rfl, { h with }, rfl⟩
  | draw x y rows => exact ⟨_, draw_eq h x y rows, (h.draw_display _).flag _, rfl⟩
  | skipPressed x => exact ⟨_, rfl, h.skipIf _, context_skipIf _ _⟩
  | skipReleased x => exact ⟨_, rfl, h.skipIf _, context_skipIf _ _⟩
  | readDelay x => exact ⟨_, rfl, h.set _ _, rfl⟩
  | awaitKey x => exact ⟨_, rfl, h.awaitKey x, context_awaitKey _ x⟩
  | setDelay x => exact ⟨_, rfl, { h with }, rfl⟩
  | setSound x => exact ⟨_, rfl, { h with }, rfl⟩
  | addIndex x => exact ⟨_, rfl, h.addIndex x, context_addIndex _ x⟩
  | loadGlyph x => exact ⟨_, rfl, h.pointAt (isAddress_glyph _), rfl⟩
  | storeDecimal x => exact ⟨_, store_eq h.memorySize_le _, h.store _, rfl⟩
  | storeRegisters x => exact ⟨_, store_eq h.memorySize_le _, h.store _, rfl⟩
  | loadRegisters x => exact ⟨_, loadTo_eq h.memorySize_le x, h.setEach _, context_setEach _ _⟩

end Machine

end Chip8
