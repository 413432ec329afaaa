import Chip8.Proofs.Console
import Chip8.Proofs.Moment
import Chip8.Proofs.TimeLine
import Mathlib.Order.Bounds.Basic

/-!
# Ticks

The timers tick at fixed times after a start.  How often they have ticked depends on the latest time
that the clock was stepped at, and on nothing else: neither on its speed, nor on what it drives, nor
on the other times.
-/

namespace Chip8

namespace TimeLine

variable {τ : Type} [TimeLine τ]

/-- The tick that comes `k` ticks after the first one since a start. -/
def tickAt (start : τ) (k : Nat) : τ := Clock.laterTick (add start tickSpan) k

theorem holds_tickAt {P : τ → Prop} (hadd : ∀ {a}, P a → P (add a tickSpan)) {start : τ}
    (hstart : P start) (k : Nat) : P (tickAt start k) := by
  induction k with
  | zero => exact hadd hstart
  | succ k ih => exact hadd ih

end TimeLine

namespace Clock

open TimeLine

variable {τ σ ε : Type} [TimeLine τ]

def course (start : τ) (times : List τ) : List (Call τ) := .start start :: times.map .step

def StepsEnd (rig : Rig ε σ) (d : Driven τ σ) : List τ → Prop
  | [] => True
  | now :: rest => Ends (step rig now d) ∧ StepsEnd rig (serve rig d (.step now)) rest

instance decidableStepsEnd (rig : Rig ε σ) :
    (d : Driven τ σ) → (times : List τ) → Decidable (StepsEnd rig d times)
  | _, [] => isTrue trivial
  | d, now :: rest =>
    have : Decidable (StepsEnd rig (serve rig d (.step now)) rest) := decidableStepsEnd rig _ rest
    inferInstanceAs (Decidable (Ends (step rig now d) ∧ StepsEnd rig _ rest))

def ticks (rig : Rig ε σ) (d : Driven τ σ) (calls : List (Call τ)) : Nat :=
  (deeds rig d calls).count (.tick true)

theorem stepsEnd_journaled {rig : Rig ε σ} {d : Driven τ (Journaled σ)} {times : List τ} :
    StepsEnd rig.journaled d times ↔ StepsEnd rig d.erased times := by
  induction times generalizing d with
  | nil => exact Iff.rfl
  | cons now rest ih =>
    unfold StepsEnd
    rw [ih, serve_journaled, ← step_journaled rig now d, ends_erase]

/-! ## One step -/

theorem ticks_proceed (rig : Rig ε σ) (now : τ) (d : Driven τ (Journaled σ)) :
    (left (proceed rig.journaled now d)).clock.nextTick = d.clock.nextTick ∧
      (left (proceed rig.journaled now d)).rig.journal.count (.tick true) =
        d.rig.journal.count (.tick true) := by
  refine left_proceed (I := fun e => e.clock.nextTick = d.clock.nextTick ∧
    e.rig.journal.count (.tick true) = d.rig.journal.count (.tick true)) ?_ ?_
  · intro e buzzing s deed haudible he
    have hdeed : deed ≠ .tick true := fun h => (h ▸ haudible : Deed.Audible (.tick true))
    exact ⟨he.1, (count_concat_of_ne _ hdeed).trans he.2⟩
  · intro e hcycled
    cases hcycled with
    | idle hdue => exact ⟨rfl, rfl⟩
    | failed hdue s => exact ⟨rfl, count_concat_of_ne _ (by decide)⟩
    | done hdue s =>
      obtain ⟨nextCycle, cycles, hleft⟩ := exists_left_advance now d.clock
      rw [hleft]
      exact ⟨rfl, count_concat_of_ne _ (by decide)⟩

theorem exists_ticks_of_step {rig : Rig ε σ} {now : τ} {d : Driven τ (Journaled σ)}
    (hends : Ends (step rig.journaled now d))
    (hticked : Deed.tick false ∉ (serve rig.journaled d (.step now)).rig.journal) :
    ∃ k, (serve rig.journaled d (.step now)).clock.nextTick = laterTick d.clock.nextTick k ∧
      (serve rig.journaled d (.step now)).rig.journal.count (.tick true) =
        d.rig.journal.count (.tick true) + k ∧
      le (laterTick d.clock.nextTick k) now = false ∧
      ∀ j < k, le (laterTick d.clock.nextTick j) now = true := by
  rcases step_cases rig now d with ⟨k, s, hstep⟩ | ⟨k, s, e, hstep⟩ | ⟨k, s, hlast, hbefore, hstep⟩
  · rw [hstep] at hends
    exact hends.elim
  · rw [serve_step, hstep] at hticked
    exact absurd (List.mem_append_right _ (List.mem_singleton_self _)) hticked
  · obtain ⟨hnext, hticks⟩ := ticks_proceed rig now (afterTicks d k s)
    have hcount : (afterTicks d k s).rig.journal.count (.tick true) =
        d.rig.journal.count (.tick true) + k := by
      unfold afterTicks
      rw [List.count_append, List.count_replicate_self]
    rw [serve_step, hstep]
    exact ⟨k, hnext, hticks.trans hcount, hlast, hbefore⟩

/-! ## From a start on -/

/-- The timers have ticked at the tick times up to `latest`, and at no other. -/
def Ticked (start latest : τ) (d : Driven τ (Journaled σ)) : Prop :=
  ∃ n, d.clock.nextTick = tickAt start n ∧ d.rig.journal.count (.tick true) = n ∧
    IsLeast {k | lt latest (tickAt start k) = true} n

variable {P : τ → Prop} {start now latest : τ} {rig : Rig ε σ} {d : Driven τ (Journaled σ)}

theorem tickAt_add (start : τ) (n k : Nat) : laterTick (tickAt start n) k = tickAt start (n + k) :=
  laterTick_add _ n k

theorem ticked_first (hP : Orders P) (hspans : ∀ k, P (tickAt start k)) (hnow : P now)
    (hnext : d.clock.nextTick = tickAt start 0) (hcount : d.rig.journal.count (.tick true) = 0)
    (hends : Ends (step rig.journaled now d))
    (hticked : Deed.tick false ∉ (serve rig.journaled d (.step now)).rig.journal) :
    Ticked start now (serve rig.journaled d (.step now)) := by
  obtain ⟨k, hnext', hcount', hlast, hbefore⟩ := exists_ticks_of_step hends hticked
  rw [hnext, tickAt_add, Nat.zero_add] at hnext' hlast
  refine ⟨k, hnext', by rw [hcount', hcount, Nat.zero_add], ?_, ?_⟩
  · exact (hP.lt_iff hnow (hspans k)).2 (Bool.eq_false_iff.1 hlast)
  · intro j hj
    by_contra hlt
    have hle := hbefore j (Nat.lt_of_not_le hlt)
    rw [hnext, tickAt_add, Nat.zero_add] at hle
    exact (hP.lt_iff hnow (hspans j)).1 hj hle

theorem Ticked.step (hP : Orders P) (hspans : ∀ k, P (tickAt start k)) (hlatest : P latest)
    (hnow : P now) (h : Ticked start latest d) (hends : Ends (step rig.journaled now d))
    (hticked : Deed.tick false ∉ (serve rig.journaled d (.step now)).rig.journal) :
    Ticked start (later latest now) (serve rig.journaled d (.step now)) := by
  obtain ⟨n, hnext, hcount, hlt, hleast⟩ := h
  obtain ⟨k, hnext', hcount', hlast, hbefore⟩ := exists_ticks_of_step hends hticked
  rw [hnext, tickAt_add] at hnext' hlast
  rw [hcount] at hcount'
  simp only [hnext, tickAt_add] at hbefore
  refine ⟨n + k, hnext', hcount', ?_⟩
  unfold later
  split
  · rename_i hle
    refine ⟨(hP.lt_iff hnow (hspans _)).2 (Bool.eq_false_iff.1 hlast), ?_⟩
    intro i hi
    have hafter : ¬le (tickAt start i) now = true := (hP.lt_iff hnow (hspans i)).1 hi
    by_contra hik
    rcases Nat.lt_or_ge i n with hin | hni
    · -- Before the last step tick `i` was past already, and `now` is later still.
      apply Nat.not_le.2 hin
      apply hleast
      apply (hP.lt_iff hlatest (hspans i)).2
      exact fun h => hafter (hP.trans (hspans i) hlatest hnow h hle)
    · obtain ⟨j, rfl⟩ := Nat.exists_eq_add_of_le hni
      exact hafter (hbefore j (by omega))
  · rename_i hle
    have hback : le now latest = true := (hP.total hlatest hnow).resolve_left hle
    have hk : k = 0 := by
      by_contra hk
      have hnow' := hbefore 0 (Nat.pos_of_ne_zero hk)
      exact (hP.lt_iff hlatest (hspans n)).1 hlt (hP.trans (hspans n) hnow hlatest hnow' hback)
    rw [hk]
    exact ⟨hlt, hleast⟩

theorem Ticked.steps (hP : Orders P) (hspans : ∀ k, P (tickAt start k)) {rest : List τ}
    (hlatest : P latest) (hrest : ∀ t ∈ rest, P t) (h : Ticked start latest d)
    (hends : StepsEnd rig.journaled d rest)
    (hticked : Deed.tick false ∉ (after rig.journaled d (rest.map .step)).rig.journal) :
    Ticked start (TimeLine.latest latest rest) (after rig.journaled d (rest.map .step)) := by
  induction rest generalizing latest d with
  | nil => exact h
  | cons now rest ih =>
    have hnow : P now := hrest now List.mem_cons_self
    have hstep : Deed.tick false ∉ (serve rig.journaled d (.step now)).rig.journal :=
      fun hmem => hticked (mem_journal_after rig hmem (rest.map .step))
    apply ih (holds_later hlatest hnow)
    · exact fun t ht => hrest t (List.mem_cons_of_mem _ ht)
    · exact h.step hP hspans hlatest hnow hends.1 hstep
    · exact hends.2
    · exact hticked

/-! ## Ticks and times -/

/-- Steps at times in `P` after a start: each of them comes to an end by itself, and the timers
never refuse to tick. -/
structure Stepping (P : τ → Prop) (start : τ) (rig : Rig ε σ) (d : Driven τ σ) (times : List τ) :
    Prop where
  ordered : ∀ t ∈ times, P t
  ends : StepsEnd rig (serve rig d (.start start)) times
  ticked : Deed.tick false ∉ deeds rig d (course start times)

theorem ticked_course (hP : Orders P) (hcheck : check start = .ok ())
    (hspans : ∀ k, P (tickAt start k)) {rig : Rig ε σ} {d : Driven τ σ} {first : τ}
    {rest : List τ} (h : Stepping P start rig d (first :: rest)) :
    Ticked start (TimeLine.latest first rest)
      (after rig.journaled d.unwritten (course start (first :: rest))) := by
  obtain ⟨hordered, hends, hquiet⟩ := h
  have hserve := serve_start rig.journaled d.unwritten hcheck
  have hjournaled : StepsEnd rig.journaled (serve rig.journaled d.unwritten (.start start))
      (first :: rest) := by
    rw [stepsEnd_journaled, serve_journaled]
    exact hends
  obtain ⟨hone, hmore⟩ := hjournaled
  have hfirst : P first := hordered first List.mem_cons_self
  have hstep : Deed.tick false ∉ (serve rig.journaled
      (serve rig.journaled d.unwritten (.start start)) (.step first)).rig.journal :=
    fun hmem => hquiet (mem_journal_after rig hmem (rest.map .step))
  have hticked : Ticked start first (serve rig.journaled
      (serve rig.journaled d.unwritten (.start start)) (.step first)) := by
    apply ticked_first hP hspans hfirst _ _ hone hstep
    · rw [hserve]
      rfl
    · rw [hserve]
      rfl
  have hrest : ∀ t ∈ rest, P t := fun t ht => hordered t (List.mem_cons_of_mem _ ht)
  exact hticked.steps hP hspans hfirst hrest hmore hquiet

/-- However a clock is stepped after a start, as long as each step comes to an end by itself, the
timers have ticked as often as there are tick times up to the latest of the steps, and the next tick
is the first one after it.  So two clocks that are started at the same time and stepped up to the
same time have ticked equally often, whatever their speeds are and whatever they drive. -/
theorem ticks_follow_latest_time (hP : Orders P) (hcheck : check start = .ok ())
    (hspans : ∀ k, P (tickAt start k)) :
    (∀ {ε σ : Type} (rig : Rig ε σ) (d : Driven τ σ) (first : τ) (rest : List τ),
      Stepping P start rig d (first :: rest) →
      TimeLine.latest first rest ∈ first :: rest ∧
        (∀ t ∈ first :: rest, le t (TimeLine.latest first rest) = true) ∧
        IsLeast {k | lt (TimeLine.latest first rest) (tickAt start k) = true}
          (ticks rig d (course start (first :: rest))) ∧
        (after rig d (course start (first :: rest))).clock.nextTick =
          tickAt start (ticks rig d (course start (first :: rest)))) ∧
    ∀ {ε σ ε' σ' : Type} (rig : Rig ε σ) (d : Driven τ σ) (first : τ) (rest : List τ)
      (rig' : Rig ε' σ') (d' : Driven τ σ') (first' : τ) (rest' : List τ),
      Stepping P start rig d (first :: rest) → Stepping P start rig' d' (first' :: rest') →
      TimeLine.latest first rest = TimeLine.latest first' rest' →
      ticks rig d (course start (first :: rest)) =
        ticks rig' d' (course start (first' :: rest')) := by
  have hleast : ∀ {ε σ : Type} (rig : Rig ε σ) (d : Driven τ σ) (first : τ) (rest : List τ),
      Stepping P start rig d (first :: rest) →
      IsLeast {k | lt (TimeLine.latest first rest) (tickAt start k) = true}
        (ticks rig d (course start (first :: rest))) := by
    intro ε σ rig d first rest h
    obtain ⟨n, -, hcount, hn⟩ := ticked_course hP hcheck hspans h
    have hticks : ticks rig d (course start (first :: rest)) = n := hcount
    rwa [hticks]
  constructor
  · intro ε σ rig d first rest h
    obtain ⟨n, hnext, hcount, -⟩ := ticked_course hP hcheck hspans h
    refine ⟨latest_mem first rest, hP.le_latest h.ordered, hleast rig d first rest h, ?_⟩
    have hplain := after_journaled rig d.unwritten (course start (first :: rest))
    have hticks : ticks rig d (course start (first :: rest)) = n := hcount
    rw [hticks, ← hnext]
    exact congrArg (fun d => d.clock.nextTick) hplain.symm
  · intro ε σ ε' σ' rig d first rest rig' d' first' rest' h h' hlatest
    have hmore := hleast rig d first rest h
    rw [hlatest] at hmore
    exact hmore.unique (hleast rig' d' first' rest' h')

/-- A clock at full speed, on a machine that jumps. -/
def racing : Driven Number (Console Grid) := ⟨new none (.real 0.0), Console.jumping⟩

/-- A clock at ten instructions a second, on a machine without a program. -/
def crawling : Driven Number (Console Grid) := ⟨new (some (.real 0.1)) (.real 0.0), Console.humming⟩

theorem ticks_of_racing_and_crawling :
    (after Console.rig racing (course (.real 0.0) [.real 0.04, .real 0.02])).clock.nextTick =
      tickAt (.real 0.0) 2 ∧
    ticks Console.rig racing (course (.real 0.0) [.real 0.04, .real 0.02]) =
      ticks Console.rig crawling (course (.real 0.0) [.real 0.01, .real 0.04]) := by
  have hshown : ∀ x : Float, x.isNaN = false → Shown (.real x) := fun x hx => ⟨⟨x, hx⟩, rfl⟩
  have hstart : Shown (.real 0.0) := hshown 0.0 (by decide +kernel)
  have hearly : Shown (.real 0.01) := hshown 0.01 (by decide +kernel)
  have hbetween : Shown (.real 0.02) := hshown 0.02 (by decide +kernel)
  have hlate : Shown (.real 0.04) := hshown 0.04 (by decide +kernel)
  have hracing : Stepping Shown (.real 0.0) Console.rig racing [.real 0.04, .real 0.02] := by
    constructor
    · simp [hlate, hbetween]
    · decide +kernel
    · exact Console.tick_false_not_mem_deeds racing _
  have hcrawling : Stepping Shown (.real 0.0) Console.rig crawling [.real 0.01, .real 0.04] := by
    constructor
    · simp [hearly, hlate]
    · decide +kernel
    · exact Console.tick_false_not_mem_deeds crawling _
  have hback : le (Number.real 0.04) (.real 0.02) = false := by decide +kernel
  have honward : le (Number.real 0.01) (.real 0.04) = true := by decide +kernel
  have hlatest : TimeLine.latest (.real 0.04) [.real 0.02] =
      TimeLine.latest (Number.real 0.01) [.real 0.04] := by
    simp only [latest_cons, later, hback, honward, Bool.false_eq_true, if_false, if_true]
  have hticks : ticks Console.rig racing (course (.real 0.0) [.real 0.04, .real 0.02]) = 2 := by
    decide +kernel
  obtain ⟨hone, htwo⟩ := ticks_follow_latest_time orders_shown (check_of_shown hstart)
    (holds_tickAt Shown.add_tickSpan hstart)
  obtain ⟨-, -, -, hnext⟩ := hone Console.rig _ _ _ hracing
  rw [hticks] at hnext
  exact ⟨hnext, htwo Console.rig _ _ _ Console.rig _ _ _ hracing hcrawling hlatest⟩

end Clock

end Chip8
