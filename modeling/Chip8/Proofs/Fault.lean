import Chip8.Proofs.Decoding
import Chip8.Proofs.Invariant

/-!
# Faults are atomic and final

Which words cause which fault, what a cycle leaves when it meets one, and what becomes of a machine
that was stopped by one.
-/

namespace Chip8.Machine

variable {m : Machine Grid}

/-! ## Which fault a cycle meets -/

theorem exists_nextFault_of_error (h : Sound m) (hf : m.fault = none) {e : Error}
    (he : m.cycle.result = .error e) : ∃ f, e = .fault f ∧ m.nextFault? = some f := by
  cases hnext : m.nextFault? with
  | none =>
    obtain ⟨i, n, -, -, -, -, hcycle⟩ := cycle_of_sound h hf hnext
    rw [hcycle] at he
    cases he
  | some f =>
    rw [(cycle_of_nextFault h hf hnext).2] at he
    exact ⟨f, (Except.error.inj he).symm, rfl⟩

theorem result_eq_fault_iff (h : Sound m) (hf : m.fault = none) {f : Fault} :
    m.cycle.result = .error (.fault f) ↔ m.nextFault? = some f := by
  constructor
  · intro he
    obtain ⟨g, hg, hnext⟩ := exists_nextFault_of_error h hf he
    rw [Error.fault.inj hg]
    exact hnext
  · intro hnext
    exact (cycle_of_nextFault h hf hnext).2

theorem nextFault?_eq_unknownOpcode_iff {u : UnknownOpcode} :
    m.nextFault? = some (.unknownOpcode u) ↔
      Instruction.ofWord? m.upcoming = none ∧ u = ⟨m.upcoming, some m.pc⟩ := by
  unfold nextFault?
  cases hw : Instruction.ofWord? m.upcoming with
  | none => simp [eq_comm]
  | some i => simp

theorem nextFault?_eq_stack_iff {e : CallStack.Error} :
    m.nextFault? = some (.stack e) ↔
      ∃ i, Instruction.ofWord? m.upcoming = some i ∧ m.stackError? i = some e := by
  unfold nextFault?
  cases hw : Instruction.ofWord? m.upcoming with
  | none => simp
  | some i => simp

theorem stackError?_eq_underflow_iff {i : Instruction} :
    m.stackError? i = some .underflow ↔ i = .ret ∧ m.stack.items = [] := by
  cases i <;> simp [stackError?]

theorem stackError?_eq_overflow_iff {i : Instruction} {limit : Int} :
    m.stackError? i = some (.overflow limit) ↔
      (∃ a, i = .call a) ∧ m.stack.limit ≤ m.stack.depth ∧ limit = m.stack.limit := by
  cases i <;> simp [stackError?, eq_comm]

/-- A word is refused for want of room on the stack if it is a call and the stack is full. -/
theorem nextFault?_eq_overflow_iff (h : Sound m) {limit : Int} :
    m.nextFault? = some (.stack (.overflow limit)) ↔
      (0x2000 ≤ m.upcoming ∧ m.upcoming ≤ 0x2FFF) ∧ m.stack.depth = 16 ∧ limit = 16 := by
  have hword := m.isWord_upcoming
  have hlimit : m.stack.limit = 16 := h.limit
  have hdepth : m.stack.depth ≤ 16 := h.depth
  -- A sound stack never exceeds its limit, so it is full just at the limit.
  have hfull : m.stack.limit ≤ m.stack.depth ↔ m.stack.depth = 16 := by omega
  rw [nextFault?_eq_stack_iff, ← Instruction.ofWord?_eq_call_iff hword.1 hword.2]
  constructor
  · rintro ⟨i, hi, he⟩
    obtain ⟨⟨a, rfl⟩, hroom, rfl⟩ := stackError?_eq_overflow_iff.1 he
    exact ⟨⟨a, hi⟩, hfull.1 hroom, hlimit⟩
  · rintro ⟨⟨a, ha⟩, hroom, rfl⟩
    exact ⟨_, ha, stackError?_eq_overflow_iff.2 ⟨⟨a, rfl⟩, hfull.2 hroom, hlimit.symm⟩⟩

theorem nextFault?_eq_underflow_iff :
    m.nextFault? = some (.stack .underflow) ↔ m.upcoming = 0x00EE ∧ m.stack.items = [] := by
  rw [nextFault?_eq_stack_iff, ← Instruction.ofWord?_eq_ret_iff]
  constructor
  · rintro ⟨i, hi, he⟩
    obtain ⟨rfl, hitems⟩ := stackError?_eq_underflow_iff.1 he
    exact ⟨hi, hitems⟩
  · rintro ⟨hret, hitems⟩
    exact ⟨_, hret, stackError?_eq_underflow_iff.2 ⟨rfl, hitems⟩⟩

/-! ## After a fault -/

theorem serve_of_halted {f : Fault} (hf : m.fault = some f) {r : Request} (hr : ¬r.Restarts) :
    ∃ keypad timers, (m.serve r).1 = { m with keypad, timers } := by
  by_cases hcycle : r = .cycle
  · subst hcycle
    refine ⟨m.keypad, m.timers, ?_⟩
    rw [serve_cycle, cycle_of_halted hf]
  · obtain ⟨keypad, timers, hserve, -, -⟩ := serve_aside m hr hcycle
    exact ⟨keypad, timers, hserve⟩

theorem after_of_halted {f : Fault} (hf : m.fault = some f) {rs : List Request}
    (hrs : ∀ r ∈ rs, ¬r.Restarts) : ∃ keypad timers, m.after rs = { m with keypad, timers } := by
  induction rs generalizing m with
  | nil => exact ⟨m.keypad, m.timers, rfl⟩
  | cons r rest ih =>
    obtain ⟨keypad, timers, hserve⟩ := serve_of_halted hf (hrs r List.mem_cons_self)
    have hrest : ∀ r ∈ rest, ¬r.Restarts := fun r hr => hrs r (List.mem_cons_of_mem _ hr)
    rw [after_cons, hserve]
    exact ih hf hrest

/-- A cycle of a machine that was not stopped yet fails on a word that does not decode, on a call
with a full stack and on a return with an empty one, and on nothing else.  When it fails it only
changes what is at hand and records the fault; and then, until the machine is started anew, every
cycle is refused with that fault, and only the keypad and the timers still change. -/
theorem fault_atomic_final (hm : Reachable m) (hf : m.fault = none) :
    m.fetch = .ok m.upcoming ∧
    (∀ u, m.cycle.result = .error (.fault (.unknownOpcode u)) ↔
      Instruction.ofWord? m.upcoming = none ∧ u = ⟨m.upcoming, some m.pc⟩) ∧
    (∀ limit, m.cycle.result = .error (.fault (.stack (.overflow limit))) ↔
      (0x2000 ≤ m.upcoming ∧ m.upcoming ≤ 0x2FFF) ∧ m.stack.depth = 16 ∧ limit = 16) ∧
    (m.cycle.result = .error (.fault (.stack .underflow)) ↔
      m.upcoming = 0x00EE ∧ m.stack.items = []) ∧
    ∀ e, m.cycle.result = .error e →
      ∃ f, e = .fault f ∧
        m.cycle.machine =
          { m with address := m.pc, word := m.upcoming, keys := m.keypad.down, fault := some f } ∧
        ∀ rs : List Request, (∀ r ∈ rs, ¬r.Restarts) →
          (∃ keypad timers, m.cycle.machine.after rs = { m.cycle.machine with keypad, timers }) ∧
          (m.cycle.machine.after rs).cycle =
            ⟨m.cycle.machine.after rs, none, .error (.halted f)⟩ := by
  have h := hm.legal.toSound
  refine ⟨fetch_eq h, ?_, ?_, ?_, ?_⟩
  · intro u
    rw [result_eq_fault_iff h hf]
    exact nextFault?_eq_unknownOpcode_iff
  · intro limit
    rw [result_eq_fault_iff h hf]
    exact nextFault?_eq_overflow_iff h
  · rw [result_eq_fault_iff h hf]
    exact nextFault?_eq_underflow_iff
  · intro e he
    obtain ⟨f, rfl, hnext⟩ := exists_nextFault_of_error h hf he
    have hmachine := (cycle_of_nextFault h hf hnext).1
    refine ⟨f, rfl, hmachine, ?_⟩
    intro rs hrs
    have hfault : m.cycle.machine.fault = some f := by
      rw [hmachine]
      rfl
    obtain ⟨keypad, timers, hafter⟩ := after_of_halted hfault hrs
    refine ⟨⟨keypad, timers, hafter⟩, ?_⟩
    apply cycle_of_halted
    rw [hafter]
    exact hfault

/-- A program that returns from no call stops for good. -/
theorem fault_final_of_lone_return :
    Reachable (usual.loaded #[0x00, 0xEE]) ∧ (usual.loaded #[0x00, 0xEE]).fault = none ∧
      (usual.loaded #[0x00, 0xEE]).cycle.result = .error (.fault (.stack .underflow)) ∧
      ∀ rs : List Request, (∀ r ∈ rs, ¬r.Restarts) →
        ((usual.loaded #[0x00, 0xEE]).cycle.machine.after rs).cycle.result =
          .error (.halted (.stack .underflow)) := by
  have hsize : (#[0x00, 0xEE] : Array UInt8).size ≤ programLimit := by decide
  have hm : Reachable (usual.loaded #[0x00, 0xEE]) := reachable_usual_loaded hsize
  have hupcoming : (usual.loaded #[0x00, 0xEE]).upcoming = 0x00EE :=
    upcoming_loaded hsize rfl rfl
  obtain ⟨-, -, -, hunderflow, hfinal⟩ := fault_atomic_final hm rfl
  have hresult := hunderflow.2 ⟨hupcoming, rfl⟩
  obtain ⟨f, hf, -, hlater⟩ := hfinal _ hresult
  refine ⟨hm, rfl, hresult, ?_⟩
  intro rs hrs
  rw [(hlater rs hrs).2, Error.fault.inj hf]
  rfl

end Chip8.Machine
