import Chip8.Proofs.Footprint

/-!
# The timers over a run

A counter stands at the value that it was set to last, less one for each tick since then, and never
below zero.  Only a cycle that executes the counter's own instruction sets it, and only ticks make
it go down: what else a machine does in between, what it is refused, and what becomes of the other
counter make no difference.
-/

namespace Chip8

theorem lowByte_toNat (b : UInt8) : lowByte b.toNat = b := by
  apply UInt8.toNat_inj.1
  have h := toNat_lowByte b.toNat
  have := b.toNat_lt
  omega

namespace Timers

inductive Counter
  | delay
  | sound
  deriving DecidableEq, Repr

def count (t : Timers) : Counter → UInt8
  | .delay => t.delay
  | .sound => t.sound

def Counter.setTo : Counter → Nibble → Instruction
  | .delay, x => .setDelay x
  | .sound, x => .setSound x

theorem Counter.eq_of_setTo_eq {c d : Counter} {x y : Nibble} (h : c.setTo x = d.setTo y) :
    c = d := by
  cases c with
  | delay =>
    cases d with
    | delay => rfl
    | sound => cases h
  | sound =>
    cases d with
    | delay => cases h
    | sound => rfl

theorem toNat_count_tick (t : Timers) (c : Counter) :
    (t.tick.count c).toNat = (t.count c).toNat - 1 := by
  cases c with
  | delay => exact toNat_countDown _
  | sound => exact toNat_countDown _

theorem sounding_eq_true_iff (t : Timers) : t.sounding = true ↔ 0 < (t.count .sound).toNat := by
  unfold sounding
  rw [decide_eq_true_iff, UInt8.lt_iff_toNat_lt]
  rfl

theorem count_stopped (c : Counter) : stopped.count c = 0 := by
  cases c <;> rfl

end Timers

namespace Request

def ticks : Request → Bool
  | .tick => true
  | _ => false

end Request

namespace Machine

open Timers (Counter)

variable {m : Machine Grid} {c : Counter} {rs : List Request} {w : UInt8} {k : Nat}

/-- The machines that were just built, reset or given a program. -/
inductive Started : Machine Grid → Prop
  | built {room : Memory.Room} {scale : HostValue} {width height : Int} {display : Display Grid}
      {calls : List HostCall} {random : RandomSource} {indexOverflow live : Bool}
      {m : Machine Grid}
      (hd : Display.new room (Grid.new scale) width height = .ok (display, calls))
      (hm : standard display random indexOverflow live = .ok m) : Started m
  | restarted {m : Machine Grid} (h : Reachable m) {r : Request} (hr : r.Restarts) :
      Started (m.serve r).1

def tickCount (rs : List Request) : Nat := rs.countP Request.ticks

def NeverSets (c : Counter) (m : Machine Grid) (rs : List Request) : Prop :=
  ∀ before later, rs = before ++ .cycle :: later →
    ∀ x, (m.after before).cycle.result ≠ .ok (c.setTo x)

/-- What a counter was last set to in a run, and how many ticks came after that.  A counter that was
not set at all counts as set to zero when the run began. -/
inductive LastSet (c : Counter) (m : Machine Grid) : List Request → UInt8 → Nat → Prop
  | set (before later : List Request) (x : Nibble)
      (hset : (m.after before).cycle.result = .ok (c.setTo x))
      (hlater : NeverSets c (m.after before).cycle.machine later) :
      LastSet c m (before ++ .cycle :: later) ((m.after before).get x) (tickCount later)
  | never {rs : List Request} (h : NeverSets c m rs) : LastSet c m rs 0 (tickCount rs)

/-! ## Runs that set a counter last -/

theorem neverSets_nil : NeverSets c m [] := by
  intro before later hrs
  simp at hrs

theorem neverSets_cons_iff {r : Request} :
    NeverSets c m (r :: rs) ↔
      (r = .cycle → ∀ x, m.cycle.result ≠ .ok (c.setTo x)) ∧ NeverSets c (m.serve r).1 rs := by
  constructor
  · intro h
    constructor
    · rintro rfl
      exact h [] rs rfl
    · rintro before later rfl
      exact h (r :: before) later rfl
  · rintro ⟨hfirst, hrest⟩ before later hrs
    cases before with
    | nil =>
      obtain ⟨rfl, -⟩ := List.cons.inj hrs
      exact hfirst rfl
    | cons b before =>
      obtain ⟨rfl, hsplit⟩ := List.cons.inj hrs
      exact hrest before later hsplit

theorem exists_lastSet (c : Counter) (m : Machine Grid) (rs : List Request) :
    ∃ w k, LastSet c m rs w k := by
  induction rs generalizing m with
  | nil => exact ⟨0, 0, .never neverSets_nil⟩
  | cons r rest ih =>
    obtain ⟨w, k, hlast⟩ := ih (m.serve r).1
    -- The first request only matters if the rest of the run never sets the counter.
    cases hlast with
    | set before later x hset hlater => exact ⟨_, _, .set (r :: before) later x hset hlater⟩
    | never hrest =>
      by_cases hfirst : r = .cycle ∧ ∃ x, m.cycle.result = .ok (c.setTo x)
      · obtain ⟨rfl, x, hset⟩ := hfirst
        rw [serve_cycle] at hrest
        exact ⟨_, _, .set [] rest x hset hrest⟩
      · have hnever : r = .cycle → ∀ x, m.cycle.result ≠ .ok (c.setTo x) :=
          fun hr x hset => hfirst ⟨hr, x, hset⟩
        exact ⟨0, _, .never (neverSets_cons_iff.2 ⟨hnever, hrest⟩)⟩

/-! ## One request -/

theorem count_timersAfter_setTo (m : Machine Grid) (c : Counter) (x : Nibble) :
    (m.timersAfter (c.setTo x)).count c = m.get x := by
  cases c with
  | delay => exact lowByte_toNat _
  | sound => exact lowByte_toNat _

theorem count_timersAfter {i : Instruction} (hi : ∀ x, i ≠ c.setTo x) :
    (m.timersAfter i).count c = m.timers.count c := by
  cases i with
  | setDelay x =>
    cases c with
    | delay => exact absurd rfl (hi x)
    | sound => rfl
  | setSound x =>
    cases c with
    | delay => rfl
    | sound => exact absurd rfl (hi x)
  | _ => rfl

theorem result_eq_setTo_iff (h : Sound m) {x : Nibble} :
    m.cycle.result = .ok (c.setTo x) ↔
      m.fault = none ∧ Instruction.ofWord? m.upcoming = some (c.setTo x) := by
  constructor
  · intro hset
    obtain ⟨hf, hw, -⟩ := cycle_of_result h hset
    exact ⟨hf, hw⟩
  · rintro ⟨hf, hw⟩
    have he : (m.takeUp m.upcoming).stackError? (c.setTo x) = none := by cases c <;> rfl
    exact result_eq h hf hw he

theorem count_cycle_setTo (h : Sound m) {x : Nibble} (hset : m.cycle.result = .ok (c.setTo x)) :
    m.cycle.machine.timers.count c = m.get x := by
  obtain ⟨-, -, -, hmachine⟩ := cycle_of_result h hset
  rw [hmachine]
  exact count_timersAfter_setTo _ c x

theorem count_cycle (h : Sound m) (hset : ∀ x, m.cycle.result ≠ .ok (c.setTo x)) :
    m.cycle.machine.timers.count c = m.timers.count c := by
  cases hf : m.fault with
  | some f => rw [cycle_of_halted hf]
  | none =>
    cases hnext : m.nextFault? with
    | some f =>
      rw [(cycle_of_nextFault h hf hnext).1]
      rfl
    | none =>
      obtain ⟨i, -, -, hcycle⟩ := cycle_executes h hf hnext
      rw [hcycle] at hset ⊢
      have hi : ∀ x, i ≠ c.setTo x := fun x hx => hset x (congrArg Except.ok hx)
      exact count_timersAfter hi

/-- A request that neither starts the machine anew nor sets a counter leaves it as it is, except
for a tick. -/
theorem toNat_count_serve (h : Sound m) {r : Request} (hr : ¬r.Restarts)
    (hset : r = .cycle → ∀ x, m.cycle.result ≠ .ok (c.setTo x)) :
    ((m.serve r).1.timers.count c).toNat = (m.timers.count c).toNat - tickCount [r] := by
  cases r with
  | load program =>
    have hsize : programLimit < program.size := Nat.not_le.1 hr
    rw [serve, load_of_tooLarge m hsize]
    rfl
  | reset => exact absurd trivial hr
  | cycle =>
    rw [serve_cycle, count_cycle h (hset rfl)]
    rfl
  | tick => exact Timers.toNat_count_tick _ _
  | setKey key isDown =>
    rw [serve_setKey]
    rfl

/-! ## Runs -/

theorem toNat_count_after (hm : Reachable m) (hrs : ∀ r ∈ rs, ¬r.Restarts)
    (hnever : NeverSets c m rs) :
    ((m.after rs).timers.count c).toNat = (m.timers.count c).toNat - tickCount rs := by
  induction rs generalizing m with
  | nil => rfl
  | cons r rest ih =>
    obtain ⟨hr, hrest⟩ := List.forall_mem_cons.1 hrs
    obtain ⟨hfirst, hlater⟩ := neverSets_cons_iff.1 hnever
    have hcount : tickCount (r :: rest) = tickCount [r] + tickCount rest := by
      unfold tickCount
      rw [← List.countP_append, List.singleton_append]
    rw [after_cons, ih (hm.served r) hrest hlater,
      toNat_count_serve hm.legal.toSound hr hfirst, hcount, Nat.sub_sub]

theorem Started.reachable (h : Started m) : Reachable m := by
  cases h with
  | built hd hm => exact .built hd hm
  | restarted h hr => exact h.served _

theorem Started.timers (h : Started m) : m.timers = Timers.stopped := by
  cases h with
  | built hd hm =>
    rw [standard_eq (Display.fits_of_new hd)] at hm
    obtain rfl := Except.ok.inj hm
    rfl
  | @restarted m h r hr =>
    have hsound := h.legal.toSound
    cases r with
    | load program =>
      rw [serve, load_eq hsound.memory hsound.fits hr]
      rfl
    | reset =>
      rw [serve, reset_eq hsound.memory hsound.fits]
      rfl
    | cycle => exact hr.elim
    | tick => exact hr.elim
    | setKey key isDown => exact hr.elim

/-- A counter stands at what it was last set to, less one for each tick since then. -/
theorem LastSet.toNat_count (hlast : LastSet c m rs w k) (hm : Started m)
    (hrs : ∀ r ∈ rs, ¬r.Restarts) : ((m.after rs).timers.count c).toNat = w.toNat - k := by
  cases hlast with
  | set before later x hset hlater =>
    have hbefore : Reachable (m.after before) := hm.reachable.after before
    have hcycle : Reachable (m.after before).cycle.machine := by
      rw [← serve_cycle]
      exact hbefore.served .cycle
    have hrest : ∀ r ∈ later, ¬r.Restarts :=
      fun r hr => hrs r (List.mem_append_right _ (List.mem_cons_of_mem _ hr))
    rw [after_append, after_cons, serve_cycle, toNat_count_after hcycle hrest hlater,
      count_cycle_setTo hbefore.legal.toSound hset]
  | never hnever =>
    rw [toNat_count_after hm.reachable hrs hnever, hm.timers, Timers.count_stopped]

theorem cycle_readDelay (h : Sound m) (hf : m.fault = none) {x : Nibble}
    (hw : Instruction.ofWord? m.upcoming = some (.readDelay x)) :
    m.cycle.result = .ok (.readDelay x) ∧ m.cycle.machine.get x = m.timers.count .delay := by
  rw [cycle_eq h hf hw rfl]
  exact ⟨rfl, get_set _ _ _⟩

/-- Whatever a machine was asked since it was built, reset or given a program: each counter stands
at the value that it was set to last, less one for each tick since then, and the buzzer should sound
until there were as many ticks as that value.  The delay counter is read as it stands.  A cycle sets
a counter if the machine is not stopped and the counter's instruction is at hand, and it leaves the
other counter as it is. -/
theorem timers_count_down (hm : Started m) (hrs : ∀ r ∈ rs, ¬r.Restarts) :
    (∀ c, ∃ w k, LastSet c m rs w k) ∧
    (∀ c w k, LastSet c m rs w k → ((m.after rs).timers.count c).toNat = w.toNat - k) ∧
    (∀ w k, LastSet .sound m rs w k → ((m.after rs).sounding = true ↔ k < w.toNat)) ∧
    (∀ w k x, LastSet .delay m rs w k → (m.after rs).fault = none →
      Instruction.ofWord? (m.after rs).upcoming = some (.readDelay x) →
      (m.after rs).cycle.result = .ok (.readDelay x) ∧
        ((m.after rs).cycle.machine.get x).toNat = w.toNat - k) ∧
    (∀ (c : Counter) x, (m.after rs).cycle.result = .ok (c.setTo x) ↔
      (m.after rs).fault = none ∧
        Instruction.ofWord? (m.after rs).upcoming = some (c.setTo x)) ∧
    ∀ c d x, c ≠ d → (m.after rs).cycle.result = .ok (c.setTo x) →
      (m.after rs).cycle.machine.timers.count c = (m.after rs).get x ∧
        (m.after rs).cycle.machine.timers.count d = (m.after rs).timers.count d := by
  have h : Sound (m.after rs) := (hm.reachable.after rs).legal.toSound
  refine ⟨fun c => exists_lastSet c m rs, fun c w k hlast => hlast.toNat_count hm hrs, ?_, ?_,
    fun c x => result_eq_setTo_iff h, ?_⟩
  · intro w k hlast
    have hcount := hlast.toNat_count hm hrs
    unfold sounding
    rw [Timers.sounding_eq_true_iff, hcount]
    omega
  · intro w k x hlast hf hw
    obtain ⟨hresult, hget⟩ := cycle_readDelay h hf hw
    rw [hget]
    exact ⟨hresult, hlast.toNat_count hm hrs⟩
  · intro c d x hne hset
    refine ⟨count_cycle_setTo h hset, count_cycle h ?_⟩
    intro y hy
    rw [hset] at hy
    exact hne (Counter.eq_of_setTo_eq (Except.ok.inj hy))

/-- A delay of five, read after two ticks. -/
theorem delay_of_five_after_two_ticks :
    Started (usual.loaded #[0x60, 0x05, 0xF0, 0x15, 0xF1, 0x07]) ∧
      (∀ r ∈ [Request.cycle, .cycle, .tick, .tick], ¬r.Restarts) ∧
      LastSet .delay (usual.loaded #[0x60, 0x05, 0xF0, 0x15, 0xF1, 0x07])
        [.cycle, .cycle, .tick, .tick] 5 2 ∧
      (((usual.loaded #[0x60, 0x05, 0xF0, 0x15, 0xF1, 0x07]).after
        [.cycle, .cycle, .tick, .tick]).cycle.machine.get 1).toNat = 3 := by
  obtain ⟨m, heq⟩ : ∃ m, m = usual.loaded #[0x60, 0x05, 0xF0, 0x15, 0xF1, 0x07] := ⟨_, rfl⟩
  have hsize : (#[0x60, 0x05, 0xF0, 0x15, 0xF1, 0x07] : Array UInt8).size ≤ programLimit := by
    decide
  have hstarted : Started m := by
    have h := Started.restarted reachable_usual (r := .load _) hsize
    rwa [← after_nil (usual.serve _).1, ← after_cons, usual_after_load hsize, ← heq] at h
  rw [← heq]
  have hm : Running #[0x60, 0x05, 0xF0, 0x15, 0xF1, 0x07] 0 m := by
    rw [heq]
    exact running_loaded hsize
  -- The word that puts five into the first register.
  have hload : Instruction.ofWord? m.upcoming = some (.loadByte 0 5) := by
    rw [hm.upcoming_eq hsize rfl rfl]
    rfl
  have hnext : wrapAddress (m.pc + 2) = (origin + 2 : Nat) := by
    rw [hm.pc]
    rfl
  obtain ⟨hexecuted, hn⟩ := hm.cycle hload rfl rfl hnext
  obtain ⟨n, hn'⟩ : ∃ n, n = m.cycle.machine := ⟨_, rfl⟩
  rw [← hn'] at hn hexecuted
  have hfive : n.get 0 = 5 := by
    rw [hexecuted]
    exact get_set _ _ _
  -- The word that sets the delay counter to it.
  have hset : Instruction.ofWord? n.upcoming = some (Counter.delay.setTo 0) := by
    rw [hn.upcoming_eq hsize rfl rfl]
    rfl
  have hnext' : wrapAddress (n.pc + 2) = (origin + 4 : Nat) := by
    rw [hn.pc]
    rfl
  obtain ⟨-, hk⟩ := hn.cycle hset rfl rfl hnext'
  have hresult : n.cycle.result = .ok (Counter.delay.setTo 0) :=
    (result_eq_setTo_iff hn.sound).2 ⟨hn.fault, hset⟩
  have hrs : ∀ r ∈ [Request.cycle, .cycle, .tick, .tick], ¬r.Restarts := by simp [Request.Restarts]
  have hbefore : m.after [.cycle] = n := by rw [after_cons, after_nil, serve_cycle, hn']
  have hlater : NeverSets .delay n.cycle.machine [.tick, .tick] :=
    neverSets_cons_iff.2 ⟨nofun, neverSets_cons_iff.2 ⟨nofun, neverSets_nil⟩⟩
  have hlast : LastSet .delay m [.cycle, .cycle, .tick, .tick] 5 2 := by
    rw [← hbefore] at hfive hresult hlater
    rw [← hfive]
    exact .set [.cycle] _ 0 hresult hlater
  -- The word that reads the counter.
  have hafter : m.after [.cycle, .cycle, .tick, .tick] =
      ((n.cycle.machine.serve .tick).1.serve .tick).1 := by
    rw [after_cons, serve_cycle, ← hn', after_cons, serve_cycle]
    rfl
  have hq : Running #[0x60, 0x05, 0xF0, 0x15, 0xF1, 0x07] 4
      (m.after [.cycle, .cycle, .tick, .tick]) := by
    rw [hafter]
    exact hk.tick.tick
  have hread : Instruction.ofWord? (m.after [.cycle, .cycle, .tick, .tick]).upcoming =
      some (.readDelay 1) := by
    rw [hq.upcoming_eq hsize rfl rfl]
    rfl
  obtain ⟨-, -, -, hdelay, -⟩ := timers_count_down hstarted hrs
  exact ⟨hstarted, hrs, hlast, (hdelay 5 2 1 hlast hq.fault hread).2⟩

end Machine

end Chip8
