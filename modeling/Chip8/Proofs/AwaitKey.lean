import Mathlib.Data.List.Induction
import Chip8.Proofs.Effect

/-!
# Waiting for a key

A machine that waits for a key runs the same instruction over and over, and is what it was before
but for its keypad, its timers and what is at hand.  The first cycle after a press ends the wait.
While a machine waits the keypad has latched the last press since the wait began, and that is what
carries the argument: the latch is emptied when a wait begins and no cycle of the wait empties it.
-/

namespace Chip8.Machine

variable {m n : Machine Grid} {x : Nibble}

/-- Whether a machine waits at the instruction that another one was about to run. -/
def Waiting (m n : Machine Grid) : Prop :=
  ∃ keypad timers keys,
    n = { m with keypad, timers, keys, address := m.pc, word := m.upcoming, awaiting := true }

def PressesLast (m : Machine Grid) (rs : List Request) : Prop :=
  ∀ before rest, rs = before ++ .cycle :: rest → m.lastPress before = none

theorem PressesLast.of_concat {rs : List Request} {r : Request} (h : m.PressesLast (rs ++ [r])) :
    m.PressesLast rs := by
  intro before rest heq
  apply h before (rest ++ [r])
  rw [heq, List.append_assoc, List.cons_append]

theorem PressesLast.append {rs ss : List Request} (h : m.PressesLast rs)
    (hss : ∀ r ∈ ss, r ≠ .cycle) : m.PressesLast (rs ++ ss) := by
  intro before rest heq
  rcases List.append_eq_append_iff.1 heq with ⟨middle, -, hmiddle⟩ | ⟨middle, hrs, hmiddle⟩
  · have hmem : Request.cycle ∈ ss := by
      rw [hmiddle]
      exact List.mem_append_right _ List.mem_cons_self
    exact absurd rfl (hss _ hmem)
  · cases middle with
    | nil =>
      have hmem : Request.cycle ∈ ss := by
        rw [List.nil_append] at hmiddle
        simp [← hmiddle]
      exact absurd rfl (hss _ hmem)
    | cons r middle =>
      obtain ⟨rfl, -⟩ := List.cons.inj hmiddle
      exact h before middle hrs

theorem PressesLast.lastPress_of_cycle {rs : List Request} {r : Request}
    (h : m.PressesLast (rs ++ [r])) (hr : r = .cycle) : m.lastPress rs = none := by
  subst hr
  exact h rs [] rfl

/-! ## One cycle of the instruction that waits -/

theorem cycle_awaitKey (h : Sound m) (hf : m.fault = none)
    (hw : Instruction.ofWord? m.upcoming = some (.awaitKey x)) :
    m.cycle = ⟨(m.takeUp m.upcoming).awaitKey x, (m.takeUp m.upcoming).traced (.awaitKey x),
      .ok (.of m.upcoming (.awaitKey x))⟩ :=
  cycle_of_ok h hf (perform_of_ok hw rfl)

theorem rewind_takeUp (h : Sound m) (word : Word) :
    (m.takeUp word).rewind = { m with address := m.pc, word, keys := m.keypad.down } := by
  unfold rewind takeUp
  rw [wrapAddress_back h.pc]

theorem awaitKey_begin (h : Sound m) (ha : m.awaiting = false) :
    (m.takeUp m.upcoming).awaitKey x =
      { m with
        keypad := m.keypad.clearLatch, address := m.pc, word := m.upcoming
        keys := m.keypad.down, awaiting := true } := by
  have ha' : ¬(m.takeUp m.upcoming).awaiting = true := by
    intro htrue
    rw [takeUp, ha] at htrue
    cases htrue
  unfold awaitKey
  rw [if_neg ha']
  unfold rewind takeUp
  rw [wrapAddress_back h.pc]

theorem awaitKey_go_on (h : Sound m) (ha : m.awaiting = true) (hk : m.keypad.latched = none) :
    (m.takeUp m.upcoming).awaitKey x =
      { m with address := m.pc, word := m.upcoming, keys := m.keypad.down } := by
  have ha' : (m.takeUp m.upcoming).awaiting = true := ha
  have hk' : (m.takeUp m.upcoming).keypad.latched = none := hk
  unfold awaitKey
  rw [if_pos ha', hk']
  exact rewind_takeUp h m.upcoming

theorem awaitKey_end (ha : m.awaiting = true) {k : Nibble} (hk : m.keypad.latched = some k) :
    (m.takeUp m.upcoming).awaitKey x =
      { m with
        v := Nibble.update m.v x (UInt8.ofNat k), pc := wrapAddress (m.pc + 2)
        address := m.pc, word := m.upcoming, keys := m.keypad.down, awaiting := false } := by
  have ha' : (m.takeUp m.upcoming).awaiting = true := ha
  have hk' : (m.takeUp m.upcoming).keypad.latched = some k := hk
  unfold awaitKey
  rw [if_pos ha', hk']
  rfl

/-! ## The course of a wait -/

section Wait

variable (h : Sound m) (hf : m.fault = none)
  (hw : Instruction.ofWord? m.upcoming = some (.awaitKey x))

include h in
theorem Waiting.sound (hn : Waiting m n) : Sound n := by
  obtain ⟨keypad, timers, keys, rfl⟩ := hn
  exact { h with address := h.pc, word := m.isWord_upcoming }

include h hf hw

theorem waiting_of_cycle (ha : m.awaiting = false) :
    m.cycle.machine =
      { m with
        keypad := m.keypad.clearLatch, address := m.pc, word := m.upcoming
        keys := m.keypad.down, awaiting := true } := by
  rw [cycle_awaitKey h hf hw]
  exact awaitKey_begin h ha

theorem Waiting.cycle_go_on (hn : Waiting m n) (hk : n.keypad.latched = none) :
    n.cycle.machine = { n with keys := n.keypad.down } := by
  have hsound := hn.sound h
  obtain ⟨keypad, timers, keys, rfl⟩ := hn
  rw [cycle_awaitKey hsound hf hw]
  exact awaitKey_go_on hsound rfl hk

theorem Waiting.cycle_end (hn : Waiting m n) {k : Nibble} (hk : n.keypad.latched = some k) :
    n.cycle.machine =
      { n with
        v := Nibble.update m.v x (UInt8.ofNat k), pc := wrapAddress (m.pc + 2)
        keys := n.keypad.down, awaiting := false } := by
  have hsound := hn.sound h
  obtain ⟨keypad, timers, keys, rfl⟩ := hn
  rw [cycle_awaitKey hsound hf hw]
  exact awaitKey_end rfl hk

/-- No request ends a wait, except for a cycle after a press. -/
theorem Waiting.serve (hn : Waiting m n) {r : Request} (hr : ¬r.Restarts)
    (hcycle : r = .cycle → n.keypad.latched = none) :
    Waiting m (n.serve r).1 ∧
      (n.serve r).1.keypad.latched = (n.pressed? r).or n.keypad.latched ∧
      ∀ k, n.keypad.down.get k = true → ¬r.Releases k →
        (n.serve r).1.keypad.down.get k = true := by
  by_cases hc : r = .cycle
  · have hgo := hn.cycle_go_on h hf hw (hcycle hc)
    subst hc
    rw [serve_cycle, hgo]
    obtain ⟨keypad, timers, keys, rfl⟩ := hn
    exact ⟨⟨keypad, timers, keypad.down, rfl⟩, rfl, fun _ hk _ => hk⟩
  · obtain ⟨keypad', timers', hserve, hlatched, hdown⟩ := serve_aside n hr hc
    rw [hserve]
    obtain ⟨keypad, timers, keys, rfl⟩ := hn
    exact ⟨⟨keypad', timers', keys, rfl⟩, hlatched, hdown⟩

/-- As long as no cycle comes after a press, a wait goes on, and the latch holds the last press. -/
theorem Waiting.after (hn : Waiting m n) (hlatch : n.keypad.latched = none) {rs : List Request}
    (hrs : ∀ r ∈ rs, ¬r.Restarts) (hlast : n.PressesLast rs) :
    Waiting m (n.after rs) ∧ (n.after rs).keypad.latched = n.lastPress rs := by
  -- From the right: a cycle at the end may only come if nothing was pressed before it.
  induction rs using List.reverseRecOn with
  | nil => exact ⟨hn, hlatch⟩
  | append_singleton rs r ih =>
    have hrs' : ∀ r ∈ rs, ¬r.Restarts := fun r hr => hrs r (List.mem_append_left _ hr)
    have hr : ¬r.Restarts := hrs r (List.mem_append_right _ List.mem_cons_self)
    obtain ⟨hwaiting, hlatched⟩ := ih hrs' hlast.of_concat
    have hcycle : r = .cycle → (n.after rs).keypad.latched = none := fun hr =>
      hlatched.trans (hlast.lastPress_of_cycle hr)
    obtain ⟨hserve, hlatched', -⟩ := hwaiting.serve h hf hw hr hcycle
    rw [after_append, lastPress_concat, ← hlatched]
    exact ⟨hserve, hlatched'⟩

/-- A key that is down all the time is never pressed. -/
theorem Waiting.held (hn : Waiting m n) (hlatch : n.keypad.latched = none) {rs : List Request}
    (hrs : ∀ r ∈ rs, ¬r.Restarts) (hlast : n.PressesLast rs) {k : Nibble}
    (hk : n.keypad.down.get k = true) (hrelease : ∀ r ∈ rs, ¬r.Releases k) :
    (n.after rs).keypad.down.get k = true ∧ n.lastPress rs ≠ some k := by
  induction rs using List.reverseRecOn with
  | nil => exact ⟨hk, nofun⟩
  | append_singleton rs r ih =>
    have hmem : r ∈ rs ++ [r] := List.mem_append_right _ List.mem_cons_self
    have hrs' : ∀ r ∈ rs, ¬r.Restarts := fun r hr => hrs r (List.mem_append_left _ hr)
    have hrelease' : ∀ r ∈ rs, ¬r.Releases k := fun r hr =>
      hrelease r (List.mem_append_left _ hr)
    obtain ⟨hdown, hpress⟩ := ih hrs' hlast.of_concat hrelease'
    obtain ⟨hwaiting, hlatched⟩ := hn.after h hf hw hlatch hrs' hlast.of_concat
    have hcycle : r = .cycle → (n.after rs).keypad.latched = none := fun hr =>
      hlatched.trans (hlast.lastPress_of_cycle hr)
    obtain ⟨-, -, hkeep⟩ := hwaiting.serve h hf hw (hrs r hmem) hcycle
    refine ⟨?_, ?_⟩
    · rw [after_append]
      exact hkeep k hdown (hrelease r hmem)
    · rw [lastPress_concat]
      intro hor
      rcases Option.or_eq_some_iff.1 hor with hr | ⟨-, hr⟩
      · exact pressed?_ne_of_down hdown r hr
      · exact hpress hr

end Wait

/-! ## Where a machine waits -/

/-- Only the instruction that waits begins or ends a wait. -/
theorem awaiting_execute (h : Sound m) {i : Instruction} (hi : ∀ x, i ≠ .awaitKey x)
    (hn : m.execute i = .ok () n) : n.awaiting = m.awaiting := by
  obtain ⟨-, rfl⟩ := executed_of_ok h hn
  cases i with
  | awaitKey x => exact absurd rfl (hi x)
  | _ => rfl

def WaitsInPlace (m : Machine Grid) : Prop :=
  m.awaiting = true → m.fault = none ∧ ∃ x, Instruction.ofWord? m.upcoming = some (.awaitKey x)

theorem waitsInPlace_of_not_awaiting (h : m.awaiting = false) : m.WaitsInPlace := by
  intro ha
  rw [h] at ha
  cases ha

theorem waitsInPlace_of_awaitKey (h : Sound m) (hf : m.fault = none)
    (hw : Instruction.ofWord? m.upcoming = some (.awaitKey x)) : m.cycle.machine.WaitsInPlace := by
  cases ha : m.awaiting with
  | false =>
    rw [waiting_of_cycle h hf hw ha]
    exact fun _ => ⟨hf, x, hw⟩
  | true =>
    rw [cycle_awaitKey h hf hw]
    cases hk : m.keypad.latched with
    | none =>
      rw [awaitKey_go_on h ha hk]
      exact fun _ => ⟨hf, x, hw⟩
    | some k =>
      rw [awaitKey_end ha hk]
      exact waitsInPlace_of_not_awaiting rfl

theorem WaitsInPlace.cycle (h : Sound m) (hm : m.WaitsInPlace) : m.cycle.machine.WaitsInPlace := by
  cases hf : m.fault with
  | some f =>
    rw [cycle_of_halted hf]
    exact hm
  | none =>
    cases ha : m.awaiting with
    | true =>
      -- The invariant names the instruction, so no other one can run while the machine waits.
      obtain ⟨-, x, hw⟩ := hm ha
      exact waitsInPlace_of_awaitKey h hf hw
    | false =>
      cases hnext : m.nextFault? with
      | some f =>
        rw [(cycle_of_nextFault h hf hnext).1]
        exact waitsInPlace_of_not_awaiting ha
      | none =>
        obtain ⟨i, n, hw, hexecute, -, -, hcycle⟩ := cycle_of_sound h hf hnext
        by_cases hi : ∃ x, i = .awaitKey x
        · obtain ⟨x, rfl⟩ := hi
          exact waitsInPlace_of_awaitKey h hf hw
        · have hother : ∀ x, i ≠ .awaitKey x := fun x hx => hi ⟨x, hx⟩
          have hkeep := awaiting_execute h.takeUp hother hexecute
          rw [hcycle]
          apply waitsInPlace_of_not_awaiting
          exact hkeep.trans ha

theorem WaitsInPlace.serve (h : Sound m) (hm : m.WaitsInPlace) (r : Request) :
    (m.serve r).1.WaitsInPlace := by
  apply serve_preserves h
  · exact waitsInPlace_of_not_awaiting rfl
  · exact fun _ => waitsInPlace_of_not_awaiting rfl
  · exact fun _ _ => hm
  · exact hm.cycle h

theorem Reachable.waitsInPlace (hm : Reachable m) : m.WaitsInPlace := by
  induction hm with
  | built hd hm =>
    rw [standard_eq (Display.fits_of_new hd)] at hm
    obtain rfl := Except.ok.inj hm
    exact waitsInPlace_of_not_awaiting rfl
  | served hm r ih => exact ih.serve hm.legal.toSound r

/-! ## From the first cycle of a wait to the last -/

section Wait

variable (h : Sound m) (hf : m.fault = none)
  (hw : Instruction.ofWord? m.upcoming = some (.awaitKey x))

include h hf hw

theorem waiting_begin (ha : m.awaiting = false) {before : List Request}
    (hbefore : ∀ r ∈ before, ¬r.Restarts ∧ r ≠ .cycle) :
    (m.after before).cycle.result = .ok (.awaitKey x) ∧
      Waiting m (m.after (before ++ [.cycle])) ∧
      (m.after (before ++ [.cycle])).keypad = (m.after before).keypad.clearLatch := by
  obtain ⟨keypad, timers, hafter⟩ := after_aside m hbefore
  have h' : Sound (m.after before) := by
    rw [hafter]
    exact { h with }
  have hf' : (m.after before).fault = none := by
    rw [hafter]
    exact hf
  have hw' : Instruction.ofWord? (m.after before).upcoming = some (.awaitKey x) := by
    rw [hafter]
    exact hw
  have ha' : (m.after before).awaiting = false := by
    rw [hafter]
    exact ha
  have hcycle := waiting_of_cycle h' hf' hw' ha'
  have hresult : (m.after before).cycle.result = .ok (.awaitKey x) := result_eq h' hf' hw' rfl
  rw [after_append, after_cons, after_nil, serve_cycle, hcycle]
  refine ⟨hresult, ⟨keypad.clearLatch, timers, keypad.down, ?_⟩, rfl⟩
  rw [hafter]
  rfl

theorem Waiting.result (hn : Waiting m n) : n.cycle.result = .ok (.awaitKey x) := by
  have hsound := hn.sound h
  obtain ⟨keypad, timers, keys, rfl⟩ := hn
  exact result_eq hsound hf hw rfl

end Wait

/-- Every machine that waits stands at the instruction that waits.  A machine that comes to it is
left as it is, but for its keypad, its timers and what is at hand, by that cycle and by every later
one up to the first that comes after a press; that one writes the key of the last press.  A key
that stays down is not pressed, and one that is pressed and released again is. -/
theorem wait_ends_with_last_press (hm : Reachable m) :
    (m.awaiting = true →
      m.fault = none ∧ ∃ x, Instruction.ofWord? m.upcoming = some (.awaitKey x)) ∧
    (m.fault = none → m.awaiting = false →
      ∀ x, Instruction.ofWord? m.upcoming = some (.awaitKey x) →
      ∀ before : List Request, (∀ r ∈ before, ¬r.Restarts ∧ r ≠ .cycle) →
      ∀ n, m.after (before ++ [.cycle]) = n →
        (m.after before).cycle.result = .ok (.awaitKey x) ∧ Waiting m n ∧
        ∀ rs : List Request, (∀ r ∈ rs, ¬r.Restarts) → n.PressesLast rs →
          Waiting m (n.after rs) ∧ (n.after rs).cycle.result = .ok (.awaitKey x) ∧
          (n.lastPress rs = none → Waiting m (n.after rs).cycle.machine) ∧
          (∀ k, n.lastPress rs = some k →
            (n.after rs).cycle.machine =
              { n.after rs with
                v := Nibble.update m.v x (UInt8.ofNat k), pc := wrapAddress (m.pc + 2)
                keys := (n.after rs).keypad.down, awaiting := false }) ∧
          (∀ k, (m.after before).keypad.down.get k = true → (∀ r ∈ rs, ¬r.Releases k) →
            n.lastPress rs ≠ some k) ∧
          ∀ k key press release, Keypad.key? key = some k → press.truth = true →
            release.truth = false → (n.after rs).keypad.down.get k = false →
            (n.after (rs ++ [.setKey key press, .setKey key release])).cycle.machine.v =
              Nibble.update m.v x (UInt8.ofNat k)) := by
  refine ⟨hm.waitsInPlace, ?_⟩
  intro hf ha x hw before hbefore n hn
  have h := hm.legal.toSound
  obtain ⟨hresult, hwaiting, hkeypad⟩ := waiting_begin h hf hw ha hbefore
  rw [hn] at hwaiting hkeypad
  have hlatch : n.keypad.latched = none := by
    rw [hkeypad]
    rfl
  refine ⟨hresult, hwaiting, ?_⟩
  intro rs hrs hlast
  obtain ⟨hafter, hlatched⟩ := hwaiting.after h hf hw hlatch hrs hlast
  refine ⟨hafter, hafter.result h hf hw, ?_, ?_, ?_, ?_⟩
  · intro hnone
    rw [hafter.cycle_go_on h hf hw (hlatched.trans hnone)]
    obtain ⟨keypad, timers, keys, hn⟩ := hafter
    rw [hn]
    exact ⟨keypad, timers, keypad.down, rfl⟩
  · intro k hk
    exact hafter.cycle_end h hf hw (hlatched.trans hk)
  · intro k hdown hrelease
    rw [← Keypad.down_clearLatch, ← hkeypad] at hdown
    exact (hwaiting.held h hf hw hlatch hrs hlast hdown hrelease).2
  · intro k key press release hkey hpress hrelease hup
    have hss : ∀ r ∈ [Request.setKey key press, .setKey key release], ¬r.Restarts ∧ r ≠ .cycle := by
      simp [Request.Restarts]
    have hrs' : ∀ r ∈ rs ++ [.setKey key press, .setKey key release], ¬r.Restarts := by
      intro r hr
      rcases List.mem_append.1 hr with hr | hr
      · exact hrs r hr
      · exact (hss r hr).1
    have hlast' := hlast.append fun r hr => (hss r hr).2
    obtain ⟨hafter', hlatched'⟩ := hwaiting.after h hf hw hlatch hrs' hlast'
    have hpressed : n.lastPress (rs ++ [.setKey key press, .setKey key release]) = some k := by
      rw [lastPress_append, lastPress_press_release hkey hpress hrelease hup]
      rfl
    rw [hafter'.cycle_end h hf hw (hlatched'.trans hpressed)]

/-- A key that is pressed and released again between two cycles. -/
theorem wait_of_usual_ends_with_press :
    Reachable (usual.loaded #[0xF0, 0x0A]) ∧ (usual.loaded #[0xF0, 0x0A]).fault = none ∧
      (usual.loaded #[0xF0, 0x0A]).awaiting = false ∧
      Instruction.ofWord? (usual.loaded #[0xF0, 0x0A]).upcoming = some (.awaitKey 0) ∧
      (∃ x, Instruction.ofWord? ((usual.loaded #[0xF0, 0x0A]).after [.cycle]).upcoming =
        some (.awaitKey x)) ∧
      ((usual.loaded #[0xF0, 0x0A]).after
          [.cycle, .setKey (.int 5) (.bool true), .setKey (.int 5) (.bool false)]).cycle.machine.v =
        Nibble.update (Vector.replicate 16 0) 0 5 := by
  -- Under a name of its own the machine is not evaluated where its parts are compared.
  obtain ⟨m, heq⟩ : ∃ m, m = usual.loaded #[0xF0, 0x0A] := ⟨_, rfl⟩
  rw [← heq]
  have hsize : (#[0xF0, 0x0A] : Array UInt8).size ≤ programLimit := by decide
  have hm : Reachable m := by
    rw [heq]
    exact reachable_usual_loaded hsize
  have hf : m.fault = none := by rw [heq]; rfl
  have ha : m.awaiting = false := by rw [heq]; rfl
  have hv : m.v = Vector.replicate 16 0 := by rw [heq]; rfl
  have hkeypad : m.keypad = Keypad.released := by rw [heq]; rfl
  have hw : Instruction.ofWord? m.upcoming = some (.awaitKey 0) := by
    have hupcoming : m.upcoming = 0xF00A := by
      rw [heq]
      exact upcoming_loaded hsize rfl rfl
    rw [hupcoming]
    rfl
  obtain ⟨-, hwaiting, hbegin⟩ :=
    waiting_begin hm.legal.toSound hf hw ha (List.forall_mem_nil _)
  have hawaiting : (m.after [.cycle]).awaiting = true := by
    obtain ⟨keypad, timers, keys, hn⟩ := hwaiting
    rw [List.nil_append] at hn
    rw [hn]
  have hplace := (wait_ends_with_last_press (hm.after [.cycle])).1 hawaiting
  have hup : (m.after [.cycle]).keypad.down.get 5 = false := by
    rw [List.nil_append, after_nil, hkeypad] at hbegin
    rw [hbegin]
    rfl
  obtain ⟨-, -, hwait⟩ :=
    (wait_ends_with_last_press hm).2 hf ha 0 hw [] (List.forall_mem_nil _) (m.after [.cycle]) rfl
  have hlast : (m.after [.cycle]).PressesLast [] := by
    intro before rest hnil
    simp at hnil
  obtain ⟨-, -, -, -, -, hpress⟩ := hwait [] (List.forall_mem_nil _) hlast
  have hv' := hpress 5 (.int 5) (.bool true) (.bool false) rfl rfl rfl hup
  rw [hv] at hv'
  exact ⟨hm, hf, ha, hw, hplace.2, hv'⟩

end Chip8.Machine
