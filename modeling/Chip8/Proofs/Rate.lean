import Chip8.Proofs.Pace
import Chip8.Proofs.Ticks
import Mathlib.Data.List.Chain

/-!
# The rate of the instructions

A clock that is stepped at least once in every interval does not drift: in exact arithmetic the
next instruction is due as many intervals after the start as instructions were run, and never lies
further off than one interval.  No step comes so late that the clock would give up instructions.
-/

namespace Chip8

namespace TimeLine

/-- The ticks that a clock is ready to make up for lead past every time. -/
class Patient (τ : Type) [TimeLine τ] : Prop where
  past : ∀ now next : τ, ∃ n ≤ patience now next, le (Clock.laterTick next n) now = false

theorem laterTick_rat (next : ℚ) (n : ℕ) : Clock.laterTick next n = next + n * (1 / 60) := by
  induction n with
  | zero => rw [Clock.laterTick, Nat.cast_zero, zero_mul, add_zero]
  | succ n ih =>
    have hstep : Clock.laterTick next (n + 1) = Clock.laterTick next n + 1 / 60 := rfl
    rw [hstep, ih, Nat.cast_succ]
    ring

instance : Patient ℚ where
  past now next := by
    refine ⟨⌊(now - next) * 60⌋.toNat + 1, le_rfl, ?_⟩
    have hfloor := Int.lt_floor_add_one ((now - next) * 60)
    have htoNat : (⌊(now - next) * 60⌋ : ℚ) ≤ (⌊(now - next) * 60⌋.toNat : ℚ) := by
      exact_mod_cast Int.self_le_toNat _
    apply decide_eq_false
    rw [laterTick_rat, Nat.cast_succ]
    linarith

end TimeLine

namespace Clock

open TimeLine

/-- Whether an instruction that is run now has the clock give up those that it is behind with. -/
def GivesUp {τ : Type} [TimeLine τ] (c : Clock τ) (now : τ) : Prop :=
  due c now = true ∧
    ∃ interval ∈ c.interval, lt lagLimit (sub now (add c.nextCycle interval)) = true

def instructions {τ σ ε : Type} [TimeLine τ] (rig : Rig ε σ) (d : Driven τ σ)
    (calls : List (Call τ)) : Nat :=
  (deeds rig d calls).count (.cycle true)

/-! ## Steps that come to an end -/

section

variable {τ σ ε α β : Type}

theorem Ends.bind {act : Drive τ σ ε α} {next : α → Drive τ σ ε β} {d : Driven τ σ}
    (hact : Ends (act d)) (hnext : ∀ a e, Ends (next a e)) : Ends ((act >>= next) d) := by
  rw [bind_apply]
  cases hrun : act d with
  | ok a e => exact hnext a e
  | error e f =>
    rw [hrun] at hact
    cases e with
    | failed e => trivial
    | badTime e => exact hact.elim
    | stalled => exact hact.elim

theorem ends_onRig (act : EStateM ε σ α) (d : Driven τ σ) : Ends (onRig act d) := by
  unfold onRig
  cases act d.rig <;> trivial

theorem ends_updateBuzzer (rig : Rig ε σ) (d : Driven τ σ) : Ends (updateBuzzer rig d) := by
  apply (ends_onRig rig.sounding d).bind
  intro on e
  change Ends ((if on ≠ e.clock.buzzing then setBuzzer rig on else pure ()) e)
  split
  · exact (ends_onRig _ e).bind fun _ _ => trivial
  · trivial

variable [TimeLine τ]

theorem ends_tickUntil (rig : Rig ε σ) {now : τ} {fuel n : Nat} {d : Driven τ σ} (hn : n ≤ fuel)
    (hpast : le (laterTick d.clock.nextTick n) now = false) : Ends (tickUntil rig now fuel d) := by
  induction fuel generalizing n d with
  | zero =>
    obtain rfl : n = 0 := Nat.le_zero.1 hn
    have hnext : le d.clock.nextTick now = false := hpast
    unfold tickUntil
    rw [bind_apply, get_apply]
    dsimp only
    rw [hnext]
    trivial
  | succ fuel ih =>
    unfold tickUntil
    rw [bind_apply, get_apply]
    dsimp only
    split
    · rename_i hle
      cases n with
      | zero => exact absurd hle (Bool.eq_false_iff.1 hpast)
      | succ n =>
        rw [bind_apply]
        unfold onRig
        cases rig.tick d.rig with
        | error e s => trivial
        | ok u s =>
          rw [← laterTick_add_tickSpan] at hpast
          exact ih (d := ⟨{ d.clock with nextTick := add d.clock.nextTick tickSpan }, s⟩)
            (Nat.le_of_succ_le_succ hn) hpast
    · trivial

theorem ends_catchUp [Patient τ] (rig : Rig ε σ) (now : τ) (d : Driven τ σ) :
    Ends (catchUp rig now d) := by
  obtain ⟨n, hn, hpast⟩ := Patient.past now d.clock.nextTick
  exact ends_tickUntil rig hn hpast

theorem StepsEnd.of_append {rig : Rig ε σ} {d : Driven τ σ} {times more : List τ}
    (h : StepsEnd rig d (times ++ more)) : StepsEnd rig d times := by
  induction times generalizing d with
  | nil => trivial
  | cons now rest ih => exact ⟨h.1, ih h.2⟩

/-- Where nothing fails in the course of some steps, nothing failed in the course of the first of
them. -/
theorem Smooth.of_course {rig : Rig ε σ} {start : τ} {d : Driven τ σ} {times more : List τ}
    (h : Smooth (deeds rig d (course start (times ++ more)))) :
    Smooth (deeds rig d (course start times)) := by
  have hcourse : course start (times ++ more) = course start times ++ more.map .step :=
    congrArg (Call.start start :: ·) List.map_append
  unfold deeds at h
  rw [hcourse, after_append] at h
  exact h.before _

end

section

variable {K σ ε : Type} [Field K] [LinearOrder K] [TimeLine K] [Exact K]

theorem ends_advance (now : K) (d : Driven K σ) :
    Ends (onClock (advance now) d : EStateM.Result (Stop ε) (Driven K σ) Unit) := by
  unfold onClock
  rw [advance_eq]
  cases d.clock.interval with
  | none => trivial
  | some interval =>
    simp only [Exact.check_eq]
    trivial

theorem ends_runDue (rig : Rig ε σ) (now : K) (d : Driven K σ) : Ends (runDue rig now d) := by
  change Ends ((if due d.clock now then (do
    onRig rig.cycle
    onClock (advance now)
    return true) else return false : Drive K σ ε Bool) d)
  split
  · exact (ends_onRig _ d).bind fun _ e => (ends_advance now e).bind fun _ _ => trivial
  · trivial

theorem ends_step [Patient K] (rig : Rig ε σ) (now : K) (d : Driven K σ) :
    Ends (step rig now d) :=
  (ends_catchUp rig now d).bind fun _ d => (ends_runDue rig now d).bind fun _ d =>
    (ends_updateBuzzer rig d).bind fun _ _ => trivial

theorem stepsEnd_of_patient [Patient K] (rig : Rig ε σ) (d : Driven K σ) (times : List K) :
    StepsEnd rig d times := by
  induction times generalizing d with
  | nil => trivial
  | cons now rest ih => exact ⟨ends_step rig now d, ih _⟩

end

/-! ## One step -/

variable {K σ ε : Type} [Field K] [LinearOrder K]

def Follows (interval earlier now : K) : Prop := earlier ≤ now ∧ now - earlier ≤ interval

/-- At `now` the next instruction is due as many intervals after the start as instructions were run,
and is neither late nor more than an interval off. -/
structure OnTime (interval start now : K) (d : Driven K (Journaled σ)) : Prop where
  capped : d.clock.interval = some interval
  nextCycle_eq : d.clock.nextCycle = start + d.rig.journal.count (.cycle true) * interval
  le_nextCycle : now ≤ d.clock.nextCycle
  nextCycle_le : d.clock.nextCycle ≤ now + interval

variable {interval start earlier now : K} {d e : Driven K (Journaled σ)}

theorem OnTime.idle (h : OnTime interval start now d)
    (hinterval : e.clock.interval = d.clock.interval)
    (hnext : e.clock.nextCycle = d.clock.nextCycle)
    (hcount : e.rig.journal.count (.cycle true) = d.rig.journal.count (.cycle true)) :
    OnTime interval start now e := by
  constructor
  · exact hinterval.trans h.capped
  · rw [hnext, hcount]
    exact h.nextCycle_eq
  · rw [hnext]
    exact h.le_nextCycle
  · rw [hnext]
    exact h.nextCycle_le

theorem follows_of_isChain {times later : List K}
    (h : (start :: (times ++ now :: later)).IsChain (Follows interval)) :
    (start :: times).IsChain (Follows interval) ∧ Follows interval (times.getLastD start) now := by
  obtain ⟨htimes, -, hnow⟩ := List.isChain_append.1 (List.cons_append ▸ h)
  refine ⟨htimes, hnow _ ?_ _ rfl⟩
  rw [List.getLast?_cons, List.getLastD_eq_getLast?]
  rfl

variable [IsStrictOrderedRing K]

theorem OnTime.le_later (h : OnTime interval start earlier d)
    (hnow : Follows interval earlier now) : now ≤ d.clock.nextCycle + interval := by
  have hnext := h.le_nextCycle
  have hgap := hnow.2
  linarith

variable [TimeLine K] [Exact K] {rig : Rig ε σ}

namespace OnTime

theorem not_givesUp (h : OnTime interval start earlier d) (hnow : Follows interval earlier now) :
    ¬GivesUp d.clock now := by
  rintro ⟨-, interval', hinterval, hlag⟩
  rw [h.capped, Option.mem_some_iff] at hinterval
  subst hinterval
  rw [Exact.sub_eq, Exact.add_eq, Exact.lagLimit_eq, Exact.lt_iff] at hlag
  have hlater := h.le_later hnow
  linarith

theorem cycled (h : OnTime interval start earlier d) (hnow : Follows interval earlier now)
    (hcycled : Cycled now d e) (hsmooth : Smooth e.rig.journal) :
    OnTime interval start now e := by
  have hlater := h.le_later hnow
  have hnext := h.nextCycle_eq
  cases hcycled with
  | idle hdue =>
    have hearly := mt (due_iff h.capped now).2 (Bool.eq_false_iff.1 hdue)
    have hahead := h.nextCycle_le
    have honward := hnow.1
    exact ⟨h.capped, hnext, le_of_not_ge hearly, by linarith⟩
  | failed hdue s => exact absurd hsmooth (not_smooth_cycle _)
  | done hdue s =>
    have hdue' : d.clock.nextCycle ≤ now := (due_iff h.capped now).1 hdue
    have hresumed : resumed now (d.clock.nextCycle + interval) = d.clock.nextCycle + interval := by
      rw [resumed_eq, if_neg (by linarith)]
    rw [left_advance h.capped, hresumed]
    constructor
    · exact h.capped
    · rw [List.count_append, List.count_singleton_self, Nat.cast_add, Nat.cast_one]
      linarith
    · exact hlater
    · linarith

theorem step (h : OnTime interval start earlier d) (hnow : Follows interval earlier now)
    (hends : Ends (step rig.journaled now d))
    (hsmooth : Smooth (left (Clock.step rig.journaled now d)).rig.journal) :
    OnTime interval start now (left (Clock.step rig.journaled now d)) := by
  revert hsmooth
  rcases step_cases rig now d with ⟨n, s, hstep⟩ | ⟨n, s, e, hstep⟩ | ⟨n, s, -, -, hstep⟩
  · rw [hstep] at hends
    exact hends.elim
  · rw [hstep]
    exact fun hsmooth => absurd hsmooth (not_smooth_tick _)
  rw [hstep]
  have hticked : OnTime interval start earlier (afterTicks d n s) :=
    h.idle rfl rfl (count_cycle_afterTicks d n s)
  refine left_proceed (I := fun e => Smooth e.rig.journal → OnTime interval start now e) ?_ ?_
  · intro e buzzing s deed haudible he hsmooth
    have hdeed : deed ≠ .cycle true := fun h => (h ▸ haudible : Deed.Audible (.cycle true))
    exact (he hsmooth.of_append).idle rfl rfl (count_concat_of_ne _ hdeed)
  · exact fun e hcycled hsmooth => hticked.cycled hnow hcycled hsmooth

/-! ## Any number of steps -/

theorem steps {times : List K} (h : OnTime interval start earlier d)
    (htimes : (earlier :: times).IsChain (Follows interval))
    (hends : StepsEnd rig.journaled d times)
    (hsmooth : Smooth (after rig.journaled d (times.map .step)).rig.journal) :
    OnTime interval start (times.getLastD earlier) (after rig.journaled d (times.map .step)) := by
  induction times generalizing earlier d with
  | nil => exact h
  | cons now rest ih =>
    obtain ⟨hnow, hrest⟩ := List.isChain_cons_cons.1 htimes
    have hstep : Smooth (serve rig.journaled d (.step now)).rig.journal :=
      hsmooth.before (rest.map .step)
    rw [List.getLastD_cons]
    exact ih (h.step hnow hends.1 hstep) hrest hends.2 hsmooth

end OnTime

theorem onTime_start {d : Driven K σ} (hcapped : d.clock.interval = some interval)
    (hinterval : 0 ≤ interval) (start : K) :
    OnTime interval start start (serve rig.journaled d.unwritten (.start start)) := by
  rw [serve_start rig.journaled d.unwritten (Exact.check_eq start)]
  have hnone : ((0 : ℕ) : K) * interval = 0 := by rw [Nat.cast_zero, zero_mul]
  constructor
  · exact hcapped
  · exact (add_zero start).symm.trans (congrArg (start + ·) hnone.symm)
  · exact le_rfl
  · exact le_add_of_nonneg_right hinterval

theorem onTime_course {d : Driven K σ} (hcapped : d.clock.interval = some interval)
    (hinterval : 0 ≤ interval) {times : List K}
    (htimes : (start :: times).IsChain (Follows interval))
    (hends : StepsEnd rig (serve rig d (.start start)) times)
    (hsmooth : Smooth (deeds rig d (course start times))) :
    OnTime interval start (times.getLastD start)
      (after rig.journaled d.unwritten (course start times)) := by
  have hends' : StepsEnd rig.journaled (serve rig.journaled d.unwritten (.start start)) times := by
    rw [stepsEnd_journaled, serve_journaled]
    exact hends
  exact (onTime_start hcapped hinterval start).steps htimes hends' hsmooth

/-- A clock at a speed of `v` is started and then stepped at times that do not go back and are never
more than an interval apart, and no tick and no instruction fails.  Then it has run one instruction
for each interval since the start that has begun, the next one is due exactly that many intervals
after the start, and no step gave up an instruction for being too late.  Each step comes to an end
by itself if the ticks that the clock is ready to make up for always lead past the present. -/
theorem instructions_keep_rate (rig : Rig ε σ) {v : K} (hv : 0 < v) :
    (Patient K → ∀ (d : Driven K σ) (times : List K), StepsEnd rig d times) ∧
    ∀ (d : Driven K σ) (start : K) (times : List K),
      d.clock.interval = some (1 / v) → (start :: times).IsChain (Follows (1 / v)) →
      StepsEnd rig (serve rig d (.start start)) times →
      Smooth (deeds rig d (course start times)) →
      ((instructions rig d (course start times) : K) - 1) * (1 / v) ≤
          times.getLastD start - start ∧
        times.getLastD start - start ≤ instructions rig d (course start times) * (1 / v) ∧
        (after rig d (course start times)).clock.nextCycle =
          start + instructions rig d (course start times) * (1 / v) ∧
        ∀ earlier now later, times = earlier ++ now :: later →
          ¬GivesUp (after rig d (course start earlier)).clock now := by
  have hinterval : 0 ≤ 1 / v := (one_div_pos.2 hv).le
  constructor
  · exact fun _ d times => stepsEnd_of_patient rig d times
  intro d start times hcapped htimes hends hsmooth
  have honTime := onTime_course hcapped hinterval htimes hends hsmooth
  have hplain := after_journaled rig d.unwritten (course start times)
  have hcount : (after rig.journaled d.unwritten (course start times)).rig.journal.count
      (.cycle true) = instructions rig d (course start times) := rfl
  have hnext := honTime.nextCycle_eq
  have hle := honTime.le_nextCycle
  have hge := honTime.nextCycle_le
  rw [hcount] at hnext
  refine ⟨by linarith, by linarith, ?_, ?_⟩
  · rw [← hnext]
    exact congrArg (fun d => d.clock.nextCycle) hplain.symm
  · rintro earlier now later rfl
    obtain ⟨hearlier, hnow⟩ := follows_of_isChain htimes
    have hbefore := onTime_course hcapped hinterval hearlier hends.of_append
      hsmooth.of_course
    have hclock := after_journaled rig d.unwritten (course start earlier)
    have hkept := hbefore.not_givesUp hnow
    exact hclock ▸ hkept

/-- A clock at two instructions a second, whose interval is longer than it may lag behind. -/
def strolling : Driven ℚ (Console Grid) := ⟨new (some (1 / 2)) 0, Console.jumping⟩

theorem strolling_keeps_rate :
    (0 : ℚ) < 2 ∧ ([0, 1 / 4, 3 / 4, 5 / 4] : List ℚ).IsChain (Follows (1 / 2)) ∧
      StepsEnd Console.rig (serve Console.rig strolling (.start 0)) [1 / 4, 3 / 4, 5 / 4] ∧
      Smooth (deeds Console.rig strolling (course 0 [1 / 4, 3 / 4, 5 / 4])) ∧
      (after Console.rig strolling (course 0 [1 / 4, 3 / 4, 5 / 4])).clock.nextCycle =
        0 + (3 : ℕ) * (1 / 2) ∧
      ¬GivesUp (after Console.rig strolling (course 0 [1 / 4, 3 / 4])).clock (5 / 4) := by
  have hspeed : (0 : ℚ) < 2 := by decide +kernel
  have htimes : ([0, 1 / 4, 3 / 4, 5 / 4] : List ℚ).IsChain (Follows (1 / 2)) := by
    simp only [List.isChain_cons_cons, Follows]
    norm_num
  obtain ⟨hpatient, hrate⟩ := instructions_keep_rate (Console.rig (ρ := Grid)) hspeed
  have hends := hpatient inferInstance (serve Console.rig strolling (.start 0))
    [1 / 4, 3 / 4, 5 / 4]
  have hsmooth : Smooth (deeds Console.rig strolling (course 0 [1 / 4, 3 / 4, 5 / 4])) := by
    decide +kernel
  have hcount : instructions Console.rig strolling (course 0 [1 / 4, 3 / 4, 5 / 4]) = 3 := by
    decide +kernel
  obtain ⟨-, -, hnext, hkept⟩ := hrate strolling 0 _ rfl htimes hends hsmooth
  rw [hcount] at hnext
  exact ⟨hspeed, htimes, hends, hsmooth, hnext, hkept [1 / 4, 3 / 4] (5 / 4) [] rfl⟩

end Clock

end Chip8
