import Chip8.Machine.Cycle
import Chip8.Proofs.Twin

/-!
# What no instruction reads

The word being executed is kept for reports, and so is whether instructions are traced.  Executing
an instruction reads neither of them and leaves both as they are.
-/

namespace Chip8.Machine

variable {ρ : Type}

def marked (m : Machine ρ) (word : Word) (live : Bool) : Machine ρ := { m with word, live }

def holding (m : Machine ρ) (word : Word) : Machine ρ := m.marked word m.live

variable (m : Machine ρ) (word : Word) (live : Bool)

/-! ## Steps of an instruction -/

theorem setEach_marked (values : List (Nibble × UInt8)) :
    (m.marked word live).setEach values = (m.setEach values).marked word live := by
  induction values generalizing m with
  | nil => rfl
  | cons value rest ih => exact ih (m.set value.1 value.2)

theorem skipIf_marked (condition : Bool) :
    (m.marked word live).skipIf condition = (m.skipIf condition).marked word live := by
  cases condition <;> rfl

theorem addIndex_marked (x : Nibble) :
    (m.marked word live).addIndex x = (m.addIndex x).marked word live := by
  have hoverflow : (m.marked word live).indexOverflow = m.indexOverflow := rfl
  simp only [addIndex, hoverflow]
  cases m.indexOverflow <;> rfl

theorem awaitKey_marked (x : Nibble) :
    (m.marked word live).awaitKey x = (m.awaitKey x).marked word live := by
  have hawaiting : (m.marked word live).awaiting = m.awaiting := rfl
  have hkeypad : (m.marked word live).keypad = m.keypad := rfl
  simp only [awaitKey, hawaiting, hkeypad]
  cases m.awaiting with
  | false => rfl
  | true => cases m.keypad.latched <;> rfl

theorem store_marked (bytes : List UInt8) :
    (m.marked word live).store bytes = mapState (marked · word live) (m.store bytes) := by
  have hmemory : (m.marked word live).memory = m.memory := rfl
  have haddresses : (m.marked word live).addresses = m.addresses := rfl
  simp only [store, hmemory, haddresses]
  cases (m.memory.writeEach ((m.addresses bytes.length).zip bytes)).2 <;> rfl

theorem loadTo_marked (x : Nibble) :
    (m.marked word live).loadTo x = mapState (marked · word live) (m.loadTo x) := by
  have hmemory : (m.marked word live).memory = m.memory := rfl
  have haddresses : (m.marked word live).addresses = m.addresses := rfl
  simp only [loadTo, hmemory, haddresses, setEach_marked]
  cases (m.memory.readEach (m.addresses (x + 1))).2 <;> rfl

variable [Screen ρ]

theorem clearDisplay_marked :
    (m.marked word live).clearDisplay = mapState (marked · word live) m.clearDisplay := by
  have hdisplay : (m.marked word live).display = m.display := rfl
  simp only [clearDisplay, hdisplay]
  cases m.display.clear <;> rfl

theorem draw_marked (x y rows : Nibble) :
    (m.marked word live).draw x y rows = mapState (marked · word live) (m.draw x y rows) := by
  have hdisplay : (m.marked word live).display = m.display := rfl
  have hmemory : (m.marked word live).memory = m.memory := rfl
  have haddresses : (m.marked word live).addresses = m.addresses := rfl
  have hget : (m.marked word live).get = m.get := rfl
  simp only [draw, hdisplay, hmemory, haddresses, hget]
  cases m.display.flipEach (spritePlaces (m.get x).toNat (m.get y).toNat
      (m.memory.readEach (m.addresses rows)).1) with
  | error e display => rfl
  | ok collided display =>
    simp only
    cases (m.memory.readEach (m.addresses rows)).2 <;> rfl

/-! ## Instructions -/

theorem execute_marked (i : Instruction) :
    (m.marked word live).execute i = mapState (marked · word live) (m.execute i) := by
  have hstack : (m.marked word live).stack = m.stack := rfl
  have hpc : (m.marked word live).pc = m.pc := rfl
  cases i with
  | clear => exact clearDisplay_marked m word live
  | ret =>
    simp only [execute, hstack]
    cases m.stack.pop <;> rfl
  | call a =>
    simp only [execute, hstack, hpc]
    cases m.stack.push m.pc <;> rfl
  | skipEqByte | skipNeByte | skipEq | skipNe | skipPressed | skipReleased =>
    exact congrArg (EStateM.Result.ok ()) (skipIf_marked m word live _)
  | draw x y rows => exact draw_marked m word live x y rows
  | awaitKey x => exact congrArg (EStateM.Result.ok ()) (awaitKey_marked m word live x)
  | addIndex x => exact congrArg (EStateM.Result.ok ()) (addIndex_marked m word live x)
  | storeDecimal x => exact store_marked m word live _
  | storeRegisters x => exact store_marked m word live _
  | loadRegisters x => exact loadTo_marked m word live x
  | _ => rfl

/-! ## The word at hand -/

theorem perform_marked :
    (m.marked m.word live).perform.machine = m.perform.machine.marked m.word live ∧
      (m.marked m.word live).perform.outcome = m.perform.outcome := by
  have hword : (m.marked m.word live).word = m.word := rfl
  have haddress : (m.marked m.word live).address = m.address := rfl
  unfold perform
  rw [hword, haddress]
  cases decode m.word (some m.address) with
  | error e => exact ⟨rfl, rfl⟩
  | ok d =>
    simp only [execute_marked]
    cases m.execute d.instruction <;> exact ⟨rfl, rfl⟩

theorem perform_keeps : m.perform.machine.word = m.word ∧ m.perform.machine.live = m.live := by
  have h : m.perform.machine = m.perform.machine.marked m.word m.live :=
    (perform_marked m m.live).1
  have hword := congrArg Machine.word h
  have hlive := congrArg Machine.live h
  exact ⟨hword, hlive⟩

theorem perform_holding {i : Instruction} (hi : Instruction.ofWord? m.word = some i)
    (hw : Instruction.ofWord? word = some i) :
    (m.holding word).perform.machine = m.perform.machine.holding word ∧
      (m.holding word).perform.result = m.perform.result := by
  have hword : (m.marked word m.live).word = word := rfl
  unfold holding
  rw [(perform_keeps m).2]
  unfold Turn.result perform
  rw [hword, decode_of_ofWord? hi, decode_of_ofWord? hw]
  simp only [Decoded.of, execute_marked]
  cases m.execute i <;> exact ⟨rfl, rfl⟩

end Chip8.Machine
