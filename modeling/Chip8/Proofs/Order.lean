import Chip8.Proofs.Decoding
import Chip8.Proofs.Effect

/-!
# The order of a cycle and of what the host does

Between two cycles a host ticks the timers and passes on keys.  A tick may as well come after a
cycle as before it, unless the instruction at hand reads or sets a timer; and so may a key, unless
the instruction looks at the keypad.
-/

namespace Chip8

/-! ## Instructions that look -/

namespace Instruction

def ReachesTimers : Instruction → Prop
  | .readDelay _ => True
  | .setDelay _ => True
  | .setSound _ => True
  | _ => False

def LooksAtKeys : Instruction → Prop
  | .skipPressed _ => True
  | .skipReleased _ => True
  | .awaitKey _ => True
  | _ => False

end Instruction

namespace Word

def ReachesTimers (w : Word) : Prop :=
  ∃ x : Nibble, w = Instruction.byteWord 0xF x 0x07 ∨ w = Instruction.byteWord 0xF x 0x15 ∨
    w = Instruction.byteWord 0xF x 0x18

instance (w : Word) : Decidable w.ReachesTimers :=
  inferInstanceAs (Decidable (∃ _ : Nibble, _))

def LooksAtKeys (w : Word) : Prop :=
  ∃ x : Nibble, w = Instruction.byteWord 0xE x 0x9E ∨ w = Instruction.byteWord 0xE x 0xA1 ∨
    w = Instruction.byteWord 0xF x 0x0A

instance (w : Word) : Decidable w.LooksAtKeys :=
  inferInstanceAs (Decidable (∃ _ : Nibble, _))

end Word

section

variable {w : Word} {i : Instruction}

theorem IsWord.eq_encode (hw : IsWord w) (hi : Instruction.ofWord? w = some i) :
    w = i.encode w.y :=
  calc w
      = Word.low16 w := (Instruction.low16_of_le hw.1 hw.2).symm
    _ = i.encode w.y := congrArg Nat.cast (Instruction.encode_of_ofWord? hi).symm

theorem not_reachesTimers_of_word (hw : IsWord w) (hi : Instruction.ofWord? w = some i)
    (h : ¬w.ReachesTimers) : ¬i.ReachesTimers := by
  have hencode := hw.eq_encode hi
  intro hreaches
  apply h
  cases i with
  | readDelay x => exact ⟨x, Or.inl hencode⟩
  | setDelay x => exact ⟨x, Or.inr (Or.inl hencode)⟩
  | setSound x => exact ⟨x, Or.inr (Or.inr hencode)⟩
  | _ => exact hreaches.elim

theorem not_looksAtKeys_of_word (hw : IsWord w) (hi : Instruction.ofWord? w = some i)
    (h : ¬w.LooksAtKeys) : ¬i.LooksAtKeys := by
  have hencode := hw.eq_encode hi
  intro hlooks
  apply h
  cases i with
  | skipPressed x => exact ⟨x, Or.inl hencode⟩
  | skipReleased x => exact ⟨x, Or.inr (Or.inl hencode)⟩
  | awaitKey x => exact ⟨x, Or.inr (Or.inr hencode)⟩
  | _ => exact hlooks.elim

end

namespace Machine

variable {m n : Machine Grid} {i : Instruction}

/-! ## One instruction -/

theorem v_setEach (m : Machine Grid) (values : List (Nibble × UInt8)) :
    (m.setEach values).v = values.foldl (fun v value => Nibble.update v value.1 value.2) m.v := by
  induction values generalizing m with
  | nil => rfl
  | cons value rest ih => exact ih (m.set value.1 value.2)

theorem v_addIndex (m : Machine Grid) (x : Nibble) :
    (m.addIndex x).v =
      if m.indexOverflow then (m.flag (decide (4095 < m.index + (m.get x).toNat))).v else m.v := by
  unfold addIndex
  dsimp only
  split <;> rfl

theorem v_awaitKey (m : Machine Grid) (x : Nibble) :
    (m.awaitKey x).v =
      match m.awaiting, m.keypad.latched with
      | true, some key => (m.set x (UInt8.ofNat key)).v
      | _, _ => m.v := by
  unfold awaitKey
  cases m.awaiting with
  | false => rfl
  | true => cases m.keypad.latched <;> rfl

theorem registersAfter_timers (hi : ¬i.ReachesTimers) (timers : Timers) :
    { m with timers }.registersAfter i = m.registersAfter i := by
  cases i with
  | readDelay x => exact absurd trivial hi
  | awaitKey x | addIndex x | loadRegisters x =>
    simp only [registersAfter, v_awaitKey, v_addIndex, v_setEach]
    rfl
  | _ => rfl

theorem registersAfter_keypad (hi : ¬i.LooksAtKeys) (keypad : Keypad) (keys : Vector Bool 16) :
    { m with keypad, keys }.registersAfter i = m.registersAfter i := by
  cases i with
  | awaitKey x => exact absurd trivial hi
  | addIndex x | loadRegisters x =>
    simp only [registersAfter, v_addIndex, v_setEach]
    rfl
  | _ => rfl

theorem executed_timers (hi : ¬i.ReachesTimers) (timers : Timers) :
    { m with timers }.executed i = { m.executed i with timers } ∧
      (m.executed i).timers = m.timers := by
  have hv := registersAfter_timers (m := m) hi timers
  unfold executed
  rw [hv]
  cases i with
  | setDelay x => exact absurd trivial hi
  | setSound x => exact absurd trivial hi
  | _ => exact ⟨rfl, rfl⟩

theorem executed_keypad (hi : ¬i.LooksAtKeys) (keypad : Keypad) (keys : Vector Bool 16) :
    { m with keypad, keys }.executed i = { m.executed i with keypad, keys } ∧
      (m.executed i).keypad = m.keypad := by
  have hv := registersAfter_keypad (m := m) hi keypad keys
  unfold executed
  rw [hv]
  cases i with
  | skipPressed x => exact absurd trivial hi
  | skipReleased x => exact absurd trivial hi
  | awaitKey x => exact absurd trivial hi
  | _ => exact ⟨rfl, rfl⟩

/-! ## One cycle -/

/-- Machines that come to the same word and the same fault, if any, are told the same, and what one
cycle leaves of them is related if it is so whatever that cycle does. -/
theorem cycle_alike {R : Machine Grid → Machine Grid → Prop} (hm : Sound m) (hn : Sound n)
    (hfault : n.fault = m.fault) (hupcoming : n.upcoming = m.upcoming)
    (hnext : n.nextFault? = m.nextFault?) (hhalted : R m n)
    (hfaulted : ∀ f, R (m.faulted f) (n.faulted f))
    (hexecuted : ∀ i, Instruction.ofWord? m.upcoming = some i →
      R ((m.takeUp m.upcoming).executed i) ((n.takeUp m.upcoming).executed i)) :
    R m.cycle.machine n.cycle.machine ∧ n.cycle.outcome = m.cycle.outcome := by
  cases hf : m.fault with
  | some f =>
    rw [cycle_of_halted hf, cycle_of_halted (hfault.trans hf)]
    exact ⟨hhalted, rfl⟩
  | none =>
    cases he : m.nextFault? with
    | some f =>
      obtain ⟨hmachine, hresult⟩ := cycle_of_nextFault hm hf he
      obtain ⟨hmachine', hresult'⟩ := cycle_of_nextFault hn (hfault.trans hf) (hnext.trans he)
      rw [hmachine, hmachine', Turn.result_eq_error_iff.1 hresult,
        Turn.result_eq_error_iff.1 hresult']
      exact ⟨hfaulted f, rfl⟩
    | none =>
      obtain ⟨i, hw, -, hcycle⟩ := cycle_executes hm hf he
      obtain ⟨j, hw', -, hcycle'⟩ := cycle_executes hn (hfault.trans hf) (hnext.trans he)
      rw [hupcoming] at hw' hcycle'
      obtain rfl := Option.some.inj (hw.symm.trans hw')
      rw [hcycle, hcycle']
      exact ⟨hexecuted i hw, rfl⟩

theorem cycle_timers (h : Sound m) (hw : ¬Word.ReachesTimers m.upcoming) (timers : Timers) :
    ({ m with timers }.cycle.machine = { m.cycle.machine with timers } ∧
      m.cycle.machine.timers = m.timers) ∧
    { m with timers }.cycle.outcome = m.cycle.outcome := by
  have hn : Sound { m with timers } := { h with }
  refine cycle_alike (R := fun a b => b = { a with timers } ∧ a.timers = m.timers) h hn
    rfl rfl rfl ⟨rfl, rfl⟩ (fun _ => ⟨rfl, rfl⟩) ?_
  intro i hi
  have hreaches := not_reachesTimers_of_word m.isWord_upcoming hi hw
  exact executed_timers (m := m.takeUp m.upcoming) hreaches timers

theorem cycle_keypad (h : Sound m) (hw : ¬Word.LooksAtKeys m.upcoming) (keypad : Keypad) :
    ({ m with keypad }.cycle.machine =
        { m.cycle.machine with keypad, keys := { m with keypad }.cycle.machine.keys } ∧
      m.cycle.machine.keypad = m.keypad) ∧
    { m with keypad }.cycle.outcome = m.cycle.outcome := by
  have hn : Sound { m with keypad } := { h with }
  refine cycle_alike (R := fun a b => b = { a with keypad, keys := b.keys } ∧ a.keypad = m.keypad)
    h hn rfl rfl rfl ⟨rfl, rfl⟩ (fun _ => ⟨rfl, rfl⟩) ?_
  intro i hi
  have hlooks := not_looksAtKeys_of_word m.isWord_upcoming hi hw
  exact executed_keypad (m := m.takeUp m.upcoming) hlooks keypad keypad.down

/-! ## Two requests in either order -/

theorem answer_cycle_of (h : n.cycle.outcome = m.cycle.outcome) :
    (n.serve .cycle).2.result = (m.serve .cycle).2.result := by
  simp only [serve, settleTurn, h]
  cases m.cycle.outcome <;> rfl

theorem answer_setKey (m n : Machine Grid) (key isDown : HostValue) :
    (n.serve (.setKey key isDown)).2.result = (m.serve (.setKey key isDown)).2.result := by
  simp only [serve, setKey, Keypad.setKey]
  cases Keypad.key? key <;> rfl

/-- Whether a machine can serve two requests in either order: it answers both of them in the same
way, and what it becomes is alike. -/
structure Swaps (alike : Machine Grid → Machine Grid → Prop) (r s : Request) (m : Machine Grid) :
    Prop where
  machine : alike (m.after [r, s]) (m.after [s, r])
  first : (m.serve r).2.result = ((m.serve s).1.serve r).2.result
  second : ((m.serve r).1.serve s).2.result = (m.serve s).2.result

/-- Whether two machines differ at most in the keys that were down when a cycle began. -/
def SameButKeys (m n : Machine Grid) : Prop := m = { n with keys := m.keys }

theorem swaps_tick (h : Sound m) (hw : ¬Word.ReachesTimers m.upcoming) :
    Swaps Eq .tick .cycle m := by
  obtain ⟨⟨hmachine, htimers⟩, hresult⟩ := cycle_timers h hw m.timers.tick
  refine ⟨?_, rfl, answer_cycle_of hresult⟩
  simp only [after_cons, after_nil, serve_cycle]
  calc m.tick.cycle.machine
      = { m.cycle.machine with timers := m.timers.tick } := hmachine
    _ = m.cycle.machine.tick := by rw [Machine.tick, htimers]

theorem exists_press (key isDown : HostValue) :
    ∃ press : Keypad → Keypad, ∀ m : Machine Grid,
      (m.serve (.setKey key isDown)).1 = { m with keypad := press m.keypad } := by
  cases hkey : Keypad.key? key with
  | none =>
    refine ⟨id, fun m => ?_⟩
    rw [serve_setKey, hkey]
    rfl
  | some k => exact ⟨(·.set k isDown.truth), fun m => serve_setKey_of_key hkey m isDown⟩

theorem swaps_setKey (h : Sound m) (hw : ¬Word.LooksAtKeys m.upcoming) (key isDown : HostValue) :
    Swaps SameButKeys (.setKey key isDown) .cycle m := by
  obtain ⟨press, hpress⟩ := exists_press key isDown
  obtain ⟨⟨hmachine, hkeypad⟩, hresult⟩ := cycle_keypad h hw (press m.keypad)
  refine ⟨?_, answer_setKey _ _ _ _, ?_⟩
  · simp only [after_cons, after_nil, serve_cycle, hpress, hkeypad]
    exact hmachine
  · rw [hpress]
    exact answer_cycle_of hresult

/-- A tick of the timers may come before a cycle or after it, unless the word at hand reads or sets
a timer, and a key may be pressed or released before a cycle or after it, unless the word at hand
looks at the keypad.  This holds of halted machines too, and of words that cause a fault. -/
theorem cycle_swaps_unless_looking (hm : Reachable m) :
    m.fetch = .ok m.upcoming ∧
    (¬Word.ReachesTimers m.upcoming → Swaps Eq .tick .cycle m) ∧
    (¬Word.LooksAtKeys m.upcoming →
      ∀ key isDown, Swaps SameButKeys (.setKey key isDown) .cycle m) := by
  have h := hm.legal.toSound
  exact ⟨fetch_eq h, swaps_tick h, swaps_setKey h⟩

/-- A program that waits for a key does not look at the timers, and one that reads the delay does
not look at the keys. -/
theorem cycle_swaps_of_loaded :
    Swaps Eq .tick .cycle (usual.loaded #[0xF3, 0x0A]) ∧
      Swaps SameButKeys (.setKey (.int 3) (.bool true)) .cycle (usual.loaded #[0xF3, 0x07]) ∧
      Swaps SameButKeys (.setKey (.int 16) (.bool true)) .cycle (usual.loaded #[0xF3, 0x07]) := by
  have hsize : (#[0xF3, 0x0A] : Array UInt8).size ≤ programLimit := by decide
  have hsize' : (#[0xF3, 0x07] : Array UInt8).size ≤ programLimit := by decide
  have hwait : (usual.loaded #[0xF3, 0x0A]).upcoming = 0xF30A := upcoming_loaded hsize rfl rfl
  have hread : (usual.loaded #[0xF3, 0x07]).upcoming = 0xF307 := upcoming_loaded hsize' rfl rfl
  obtain ⟨-, htick, -⟩ := cycle_swaps_unless_looking (reachable_usual_loaded hsize)
  obtain ⟨-, -, hkey⟩ := cycle_swaps_unless_looking (reachable_usual_loaded hsize')
  rw [hwait] at htick
  rw [hread] at hkey
  exact ⟨htick (by decide), hkey (by decide) _ _, hkey (by decide) _ _⟩

end Machine

end Chip8
