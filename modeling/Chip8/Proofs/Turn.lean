import Chip8.Proofs.Sound

/-!
# One cycle of a sound machine

A cycle has one of three endings: the machine was halted before and stays as it is; the word at
hand or the stack causes a fault, which leaves the machine pointing at that word; or an instruction
goes through.
-/

namespace Chip8.Machine

def nextFault? (m : Machine Grid) : Option Fault :=
  match Instruction.ofWord? m.upcoming with
  | none => some (.unknownOpcode ⟨m.upcoming, some m.pc⟩)
  | some i => (m.stackError? i).map .stack

def faulted (m : Machine Grid) (f : Fault) : Machine Grid :=
  { m with address := m.pc, word := m.upcoming, keys := m.keypad.down, fault := some f }

variable {m : Machine Grid}

def traced (m : Machine Grid) (i : Instruction) : Option String :=
  if m.live then some (m.describe i.mnemonic) else none

theorem perform_of_unknown (hw : Instruction.ofWord? m.word = none) :
    m.perform = ⟨m, none, .error (.fault (.unknownOpcode ⟨m.word, some m.address⟩))⟩ := by
  have hdecode : decode m.word (some m.address) = .error ⟨m.word, some m.address⟩ :=
    decode_eq_error_iff.2 ⟨hw, rfl⟩
  unfold perform
  rw [hdecode]

theorem perform_of_error {i : Instruction} {e : Error} {n : Machine Grid}
    (hw : Instruction.ofWord? m.word = some i) (hi : m.execute i = .error e n) :
    m.perform = ⟨n, m.traced i, .error e⟩ := by
  unfold perform
  rw [decode_of_ofWord? hw]
  simp only [Decoded.of, hi]
  rfl

theorem perform_of_ok {i : Instruction} {n : Machine Grid}
    (hw : Instruction.ofWord? m.word = some i) (hi : m.execute i = .ok () n) :
    m.perform = ⟨n, m.traced i, .ok (.of m.word i)⟩ := by
  unfold perform
  rw [decode_of_ofWord? hw]
  simp only [Decoded.of, hi]
  rfl

theorem cycle_of_halted {ρ : Type} [Screen ρ] {m : Machine ρ} {f : Fault}
    (hf : m.fault = some f) : m.cycle = ⟨m, none, .error (.halted f)⟩ := by
  unfold cycle
  rw [hf]

theorem cycle_of_fault (h : Sound m) (hf : m.fault = none) {n : Machine Grid}
    {printed : Option String} {f : Fault}
    (hperform : (m.takeUp m.upcoming).perform = ⟨n, printed, .error (.fault f)⟩) :
    m.cycle = ⟨n.halt f, printed, .error (.fault f)⟩ := by
  unfold cycle
  rw [hf, fetch_eq h]
  simp only [hperform]

theorem cycle_of_ok (h : Sound m) (hf : m.fault = none) {n : Machine Grid}
    {printed : Option String} {d : Decoded}
    (hperform : (m.takeUp m.upcoming).perform = ⟨n, printed, .ok d⟩) :
    m.cycle = ⟨n, printed, .ok d⟩ := by
  unfold cycle
  rw [hf, fetch_eq h]
  simp only [hperform]

theorem cycle_of_nextFault (h : Sound m) (hf : m.fault = none) {f : Fault}
    (he : m.nextFault? = some f) :
    m.cycle.machine = m.faulted f ∧ m.cycle.result = .error (.fault f) := by
  unfold nextFault? at he
  cases hw : Instruction.ofWord? m.upcoming with
  | none =>
    simp only [hw] at he
    cases he
    have hperform := perform_of_unknown (m := m.takeUp m.upcoming) hw
    rw [cycle_of_fault h hf hperform]
    exact ⟨rfl, rfl⟩
  | some i =>
    simp only [hw, Option.map_eq_some_iff] at he
    obtain ⟨e, he, rfl⟩ := he
    have hexecute := execute_of_stackError (m := m.takeUp m.upcoming) (i := i) he
    rw [cycle_of_fault h hf (perform_of_error hw hexecute)]
    exact ⟨rfl, rfl⟩

theorem cycle_of_sound (h : Sound m) (hf : m.fault = none) (he : m.nextFault? = none) :
    ∃ i n, Instruction.ofWord? m.upcoming = some i ∧
      (m.takeUp m.upcoming).execute i = .ok () n ∧ Sound n ∧
      n.context = (m.takeUp m.upcoming).context ∧
      m.cycle = ⟨n, (m.takeUp m.upcoming).traced i, .ok (.of m.upcoming i)⟩ := by
  unfold nextFault? at he
  cases hw : Instruction.ofWord? m.upcoming with
  | none => simp [hw] at he
  | some i =>
    simp only [hw, Option.map_eq_none_iff] at he
    obtain ⟨n, hexecute, hn, hcontext⟩ := execute_of_sound h.takeUp he
    have hperform := perform_of_ok (m := m.takeUp m.upcoming) hw hexecute
    exact ⟨i, n, rfl, hexecute, hn, hcontext, cycle_of_ok h hf hperform⟩

end Chip8.Machine
