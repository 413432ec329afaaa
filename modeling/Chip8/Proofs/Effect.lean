import Chip8.Proofs.Invariant

/-!
# What an instruction leaves

An instruction that goes through, part by part: each part of a machine has its own list of the
instructions that reach it, and every other instruction leaves it as it was.  The parts put together
are what executing the instruction gives.
-/

namespace Chip8

def Instruction.skips (register : Nibble → UInt8) (down : Vector Bool 16) : Instruction → Bool
  | .skipEqByte x b => register x == b
  | .skipNeByte x b => register x != b
  | .skipEq x y => register x == register y
  | .skipNe x y => register x != register y
  | .skipPressed x => down.get (Nibble.ofNat (register x).toNat)
  | .skipReleased x => !down.get (Nibble.ofNat (register x).toNat)
  | _ => false

namespace Machine

variable {m n : Machine Grid} {i : Instruction}

/-! ## The parts -/

def stored (m : Machine Grid) (bytes : List UInt8) : Memory :=
  m.memory.putEach ((m.addresses bytes.length).zip bytes)

def memoryAfter (m : Machine Grid) : Instruction → Memory
  | .storeDecimal x => m.stored (decimalDigits (m.get x))
  | .storeRegisters x => m.stored ((registersTo x).map m.get)
  | _ => m.memory

def stackAfter (m : Machine Grid) : Instruction → CallStack
  | .ret => { m.stack with items := m.stack.items.tail }
  | .call _ => { m.stack with items := m.pc :: m.stack.items }
  | _ => m.stack

def displayAfter (m : Machine Grid) : Instruction → Display Grid
  | .clear => m.display.darkened
  | .draw x y rows => m.display.flippedEach (m.spriteAt x y rows)
  | _ => m.display

def timersAfter (m : Machine Grid) : Instruction → Timers
  | .setDelay x => m.timers.setDelay (m.get x).toNat
  | .setSound x => m.timers.setSound (m.get x).toNat
  | _ => m.timers

def randomAfter (m : Machine Grid) : Instruction → RandomSource
  | .random _ _ => m.random.draw.2
  | _ => m.random

def indexAfter (m : Machine Grid) : Instruction → Int
  | .loadIndex a => a
  | .addIndex x => wrapAddress (m.index + (m.get x).toNat)
  | .loadGlyph x => glyphs + glyphSize * ((m.get x).toNat % 16)
  | _ => m.index

/-- Whether the program was waiting for a key and has got one. -/
def served (m : Machine Grid) : Bool := m.awaiting && m.keypad.latched.isSome

def keypadAfter (m : Machine Grid) : Instruction → Keypad
  | .awaitKey _ => if m.awaiting then m.keypad else m.keypad.clearLatch
  | _ => m.keypad

def awaitingAfter (m : Machine Grid) : Instruction → Bool
  | .awaitKey _ => !m.served
  | _ => m.awaiting

def pcAfter (m : Machine Grid) : Instruction → Int
  | .ret => m.stack.items.headD m.pc
  | .jump a => a
  | .call a => a
  | .jumpOffset a => wrapAddress ((m.get (Nibble.ofNat 0)).toNat + a)
  | .awaitKey _ => if m.served then m.pc else wrapAddress (m.pc - 2)
  | i => if i.skips m.get m.keys then wrapAddress (m.pc + 2) else m.pc

def registersAfter (m : Machine Grid) : Instruction → Vector UInt8 16
  | .loadByte x b => (m.set x b).v
  | .addByte x b => (m.set x (m.get x + b)).v
  | .load x y => (m.set x (m.get y)).v
  | .or x y => (m.set x (m.get x ||| m.get y)).v
  | .and x y => (m.set x (m.get x &&& m.get y)).v
  | .xor x y => (m.set x (m.get x ^^^ m.get y)).v
  | .add x y => (m.addTo x y).v
  | .sub x y => (m.subtractTo x (m.get x) (m.get y)).v
  | .shiftRight x => ((m.set x (m.get x >>> 1)).flag (m.get x % 2 == 1)).v
  | .subFrom x y => (m.subtractTo x (m.get y) (m.get x)).v
  | .shiftLeft x => ((m.set x (m.get x <<< 1)).flag (decide (128 ≤ m.get x))).v
  | .random x mask => (m.set x (lowByte m.random.draw.1 &&& mask)).v
  | .draw x y rows => (m.flag (m.display.collides (m.spriteAt x y rows))).v
  | .readDelay x => (m.set x m.timers.delay).v
  | .awaitKey x => (m.awaitKey x).v
  | .addIndex x => (m.addIndex x).v
  | .loadRegisters x =>
    (m.setEach ((registersTo x).zip ((m.addresses (x + 1)).map m.memory.byteAt))).v
  | _ => m.v

def executed (m : Machine Grid) (i : Instruction) : Machine Grid :=
  { m with
    memory := m.memoryAfter i
    stack := m.stackAfter i
    display := m.displayAfter i
    keypad := m.keypadAfter i
    timers := m.timersAfter i
    random := m.randomAfter i
    v := m.registersAfter i
    index := m.indexAfter i
    pc := m.pcAfter i
    awaiting := m.awaitingAfter i }

/-! ## The parts put together -/

theorem skipIf_eq (m : Machine Grid) (condition : Bool) :
    m.skipIf condition = { m with pc := if condition then wrapAddress (m.pc + 2) else m.pc } := by
  cases condition <;> rfl

theorem setEach_eq {ρ : Type} (m : Machine ρ) (values : List (Nibble × UInt8)) :
    m.setEach values = { m with v := (m.setEach values).v } := by
  induction values generalizing m with
  | nil => rfl
  | cons value rest ih => rw [setEach, ih]; rfl

theorem addIndex_eq (m : Machine Grid) (x : Nibble) :
    m.addIndex x =
      { m with index := wrapAddress (m.index + (m.get x).toNat), v := (m.addIndex x).v } := by
  unfold addIndex
  dsimp only
  split <;> rfl

theorem awaitKey_eq (m : Machine Grid) (x : Nibble) :
    m.awaitKey x =
      { m with
        keypad := m.keypadAfter (.awaitKey x), v := (m.awaitKey x).v
        pc := m.pcAfter (.awaitKey x), awaiting := m.awaitingAfter (.awaitKey x) } := by
  unfold awaitKey keypadAfter pcAfter awaitingAfter served
  cases hawaiting : m.awaiting with
  | false => rfl
  | true =>
    cases m.keypad.latched with
    | none => simp [rewind, hawaiting]
    | some key => rfl

theorem exists_items_of_ret (he : m.stackError? .ret = none) :
    ∃ item rest, m.stack.items = item :: rest := by
  cases hitems : m.stack.items with
  | nil => simp [stackError?, hitems] at he
  | cons item rest => exact ⟨item, rest, rfl⟩

/-- An instruction that the stack does not refuse goes through, and leaves each part as listed. -/
theorem execute_eq (h : Sound m) (he : m.stackError? i = none) :
    m.execute i = .ok () (m.executed i) := by
  cases i with
  | clear => exact clearDisplay_eq h
  | ret =>
    obtain ⟨item, rest, hitems⟩ := exists_items_of_ret he
    simp only [execute, CallStack.pop, executed, stackAfter, pcAfter, hitems]
    rfl
  | call a =>
    have hroom : ¬m.stack.limit ≤ m.stack.depth := by
      intro hfull
      simp [stackError?, hfull] at he
    simp only [execute, CallStack.push, if_neg hroom]
    rfl
  | skipEqByte x b => rw [execute, skipIf_eq]; rfl
  | skipNeByte x b => rw [execute, skipIf_eq]; rfl
  | skipEq x y => rw [execute, skipIf_eq]; rfl
  | skipNe x y => rw [execute, skipIf_eq]; rfl
  | skipPressed x => rw [execute, skipIf_eq]; rfl
  | skipReleased x => rw [execute, skipIf_eq]; rfl
  | draw x y rows => exact draw_eq h x y rows
  | awaitKey x => rw [execute, awaitKey_eq]; rfl
  | addIndex x => rw [execute, addIndex_eq]; rfl
  | storeDecimal x => exact store_eq h.memorySize_le _
  | storeRegisters x => exact store_eq h.memorySize_le _
  | loadRegisters x => rw [execute, loadTo_eq h.memorySize_le, setEach_eq]; rfl
  | _ => rfl

theorem executed_of_ok (h : Sound m) (hn : m.execute i = .ok () n) :
    m.stackError? i = none ∧ n = m.executed i := by
  cases he : m.stackError? i with
  | none =>
    rw [execute_eq h he] at hn
    cases hn
    exact ⟨rfl, rfl⟩
  | some e =>
    rw [execute_of_stackError he] at hn
    cases hn

/-! ## Cycles that go through -/

theorem cycle_eq (h : Sound m) (hf : m.fault = none)
    (hw : Instruction.ofWord? m.upcoming = some i)
    (he : (m.takeUp m.upcoming).stackError? i = none) :
    m.cycle = ⟨(m.takeUp m.upcoming).executed i, (m.takeUp m.upcoming).traced i,
      .ok (.of m.upcoming i)⟩ :=
  cycle_of_ok h hf (perform_of_ok hw (execute_eq h.takeUp he))

theorem result_eq (h : Sound m) (hf : m.fault = none)
    (hw : Instruction.ofWord? m.upcoming = some i)
    (he : (m.takeUp m.upcoming).stackError? i = none) : m.cycle.result = .ok i := by
  rw [cycle_eq h hf hw he]
  rfl

theorem cycle_executes (h : Sound m) (hf : m.fault = none) (hnext : m.nextFault? = none) :
    ∃ i, Instruction.ofWord? m.upcoming = some i ∧ (m.takeUp m.upcoming).stackError? i = none ∧
      m.cycle = ⟨(m.takeUp m.upcoming).executed i, (m.takeUp m.upcoming).traced i,
        .ok (.of m.upcoming i)⟩ := by
  obtain ⟨i, n, hw, hexecute, -⟩ := cycle_of_sound h hf hnext
  have he := (executed_of_ok h.takeUp hexecute).1
  exact ⟨i, hw, he, cycle_eq h hf hw he⟩

/-- A cycle that goes through met no fault, then or before, and executed the word at hand. -/
theorem cycle_of_result (h : Sound m) (hr : m.cycle.result = .ok i) :
    m.fault = none ∧ Instruction.ofWord? m.upcoming = some i ∧
      (m.takeUp m.upcoming).stackError? i = none ∧
      m.cycle.machine = (m.takeUp m.upcoming).executed i := by
  cases hf : m.fault with
  | some f =>
    rw [cycle_of_halted hf] at hr
    cases hr
  | none =>
    cases hnext : m.nextFault? with
    | some f =>
      rw [(cycle_of_nextFault h hf hnext).2] at hr
      cases hr
    | none =>
      obtain ⟨i', hw, he, hcycle⟩ := cycle_executes h hf hnext
      rw [hcycle] at hr ⊢
      cases hr
      exact ⟨rfl, hw, he, rfl⟩

/-! ## Running a program -/

/-- Whether a usual machine has come to the word at a place of its program, and memory is still as
it was when the program was loaded. -/
structure Running (program : Array UInt8) (k : Nat) (m : Machine Grid) : Prop where
  reachable : Reachable m
  memory : m.memory = memoryWith program
  pc : m.pc = (origin + k : Nat)
  fault : m.fault = none

variable {program : Array UInt8} {k : Nat}

theorem running_loaded (hsize : program.size ≤ programLimit) :
    Running program 0 (usual.loaded program) where
  reachable := reachable_usual_loaded hsize
  memory := rfl
  pc := rfl
  fault := rfl

theorem Running.sound (h : Running program k m) : Sound m := h.reachable.legal.toSound

theorem Running.upcoming_eq (h : Running program k m) (hsize : program.size ≤ programLimit)
    {high low : UInt8} (h₀ : program[k]? = some high) (h₁ : program[k + 1]? = some low) :
    m.upcoming = 256 * high.toNat + low.toNat :=
  Machine.upcoming_eq hsize h.memory h.pc h₀ h₁

theorem Running.tick (h : Running program k m) : Running program k (m.serve .tick).1 :=
  { h with reachable := h.reachable.served .tick }

theorem Running.cycle (h : Running program k m) (hw : Instruction.ofWord? m.upcoming = some i)
    (he : (m.takeUp m.upcoming).stackError? i = none)
    (hmemory : (m.takeUp m.upcoming).memoryAfter i = m.memory) {l : Nat}
    (hpc : (m.takeUp m.upcoming).pcAfter i = (origin + l : Nat)) :
    m.cycle.machine = (m.takeUp m.upcoming).executed i ∧ Running program l m.cycle.machine := by
  have hcycle := cycle_eq h.sound h.fault hw he
  have hreach := h.reachable.served .cycle
  rw [serve_cycle] at hreach
  refine ⟨by rw [hcycle], hreach, ?_, ?_, ?_⟩
  · rw [hcycle]
    exact hmemory.trans h.memory
  · rw [hcycle]
    exact hpc
  · rw [hcycle]
    exact h.fault

end Machine

end Chip8
