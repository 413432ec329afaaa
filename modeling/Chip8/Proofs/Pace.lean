import Chip8.Proofs.Console
import Chip8.Proofs.Moment
import Chip8.Proofs.Turn
import Mathlib.Algebra.Order.Field.Basic
import Mathlib.Data.Rat.Floor
import Mathlib.Tactic.FieldSimp
import Mathlib.Tactic.Linarith
import Mathlib.Tactic.NormNum

/-!
# The pace of the instructions

In exact arithmetic a clock runs no more instructions in any stretch of time than its speed allows
for, but for those of a tenth of a second and one more, however long it was stalled before.
-/

namespace Chip8

namespace TimeLine

/-- Times are reckoned with exactly, as in an ordered field. -/
class Exact (K : Type) [Field K] [LinearOrder K] [TimeLine K] : Prop where
  add_eq : ∀ a b : K, add a b = a + b
  sub_eq : ∀ a b : K, sub a b = a - b
  le_iff : ∀ a b : K, le a b = true ↔ a ≤ b
  lt_iff : ∀ a b : K, lt a b = true ↔ a < b
  check_eq : ∀ a : K, check a = .ok ()
  lagLimit_eq : (lagLimit : K) = 1 / 10

instance : TimeLine ℚ where
  add a b := a + b
  sub a b := a - b
  le a b := decide (a ≤ b)
  lt a b := decide (a < b)
  check _ := .ok ()
  tickSpan := 1 / 60
  frameSpan := 1 / 60
  lagLimit := 1 / 10
  second := 1
  wholeSecond t := .ok (if t < 0 then ⌈t⌉ else ⌊t⌋)
  patience now next := ⌊(now - next) * 60⌋.toNat + 1

instance : Exact ℚ where
  add_eq _ _ := rfl
  sub_eq _ _ := rfl
  le_iff _ _ := decide_eq_true_iff
  lt_iff _ _ := decide_eq_true_iff
  check_eq _ := rfl
  lagLimit_eq := rfl

end TimeLine

namespace Clock

open TimeLine

/-! ## Failed instructions -/

section

variable {τ σ ε : Type}

/-- However it goes on, the machine in the rig runs no further instruction. -/
def Dead (rig : Rig ε σ) (s : σ) : Prop :=
  ∃ I : σ → Prop, rig.Keeps I ∧ (∀ t, I t → ∃ e u, rig.cycle t = .error e u) ∧ I s

variable [TimeLine τ]

theorem Dead.not_mem_deeds {rig : Rig ε σ} {d : Driven τ σ} (h : Dead rig d.rig)
    (calls : List (Call τ)) : Deed.cycle true ∉ deeds rig d calls := by
  obtain ⟨I, hkeeps, hfails, hd⟩ := h
  refine Clock.not_mem_deeds hkeeps (fun s hs hdeed => ?_) hd calls
  obtain ⟨e, t, hrun⟩ := hfails s hs
  generalize hdone : Deed.cycle true = deed at hdeed
  cases hdeed with
  | cycle => simp [hrun, answer] at hdone
  | _ => cases hdone

def Smooth (journal : List Deed) : Prop := Deed.tick false ∉ journal ∧ Deed.cycle false ∉ journal

instance (journal : List Deed) : Decidable (Smooth journal) :=
  inferInstanceAs (Decidable (Deed.tick false ∉ journal ∧ Deed.cycle false ∉ journal))

theorem Smooth.of_append {journal more : List Deed} (h : Smooth (journal ++ more)) :
    Smooth journal :=
  ⟨fun hmem => h.1 (List.mem_append_left _ hmem), fun hmem => h.2 (List.mem_append_left _ hmem)⟩

theorem not_smooth_tick (journal : List Deed) : ¬Smooth (journal ++ [.tick false]) :=
  fun h => h.1 (List.mem_append_right _ (List.mem_singleton_self _))

theorem not_smooth_cycle (journal : List Deed) : ¬Smooth (journal ++ [.cycle false]) :=
  fun h => h.2 (List.mem_append_right _ (List.mem_singleton_self _))

theorem Smooth.before {rig : Rig ε σ} {d : Driven τ (Journaled σ)} (calls : List (Call τ))
    (h : Smooth (after rig.journaled d calls).rig.journal) : Smooth d.rig.journal :=
  ⟨fun hmem => h.1 (mem_journal_after rig hmem calls),
    fun hmem => h.2 (mem_journal_after rig hmem calls)⟩

/-- What brings a clock to a time: a start, or a step that comes to an end by itself and whose ticks
go through, unless its instruction fails and the machine could go on all the same. -/
inductive Opens (rig : Rig ε σ) (d : Driven τ σ) (now : τ) : Call τ → Prop
  | start : Opens rig d now (.start now)
  | step (hends : Ends (step rig now d))
    (hticked : Deed.tick false ∉ deeds rig d [.step now])
    (hcycle : Deed.cycle false ∉ deeds rig d [.step now] ∨
      Dead rig (serve rig d (.step now)).rig) :
    Opens rig d now (.step now)

end

theorem dead_of_fault {ρ : Type} [Screen ρ] {c : Console ρ} {f : Fault}
    (h : c.machine.fault = some f) : Dead Console.rig c := by
  refine ⟨fun c => c.machine.fault = some f, ?_, ?_, h⟩
  · apply Console.rig_keeps
    case htick => exact fun c hc => hc
    case hcycle =>
      intro c hc
      rw [Machine.cycle_of_halted hc]
      exact hc
    case hbuzz => exact fun c on hc => hc
    case hpoll => exact fun c hc => hc
    case hrefresh => exact fun c hc => hc
    case hreport => exact fun c frames cycles hc => hc
  · intro c hc
    change ∃ e t, Console.cycle c = .error e t
    unfold Console.cycle
    rw [Machine.cycle_of_halted hc]
    exact ⟨_, _, rfl⟩

variable {K σ ε : Type} [Field K] [LinearOrder K]

/-- The instructions since a journal was begun, when the first of them was due at `first`: each puts
off the next one by an interval at least, and none comes later than `last`. -/
structure Paced (interval first last : K) (d : Driven K (Journaled σ)) : Prop where
  capped : d.clock.interval = some interval
  putOff : first + d.rig.journal.count (.cycle true) * interval ≤ d.clock.nextCycle
  inTime : d.rig.journal.count (.cycle true) = 0 ∨
    first + d.rig.journal.count (.cycle true) * interval ≤ last + interval

theorem Paced.idle {interval first last : K} {d e : Driven K (Journaled σ)}
    (h : Paced interval first last d)
    (hinterval : e.clock.interval = d.clock.interval)
    (hnext : e.clock.nextCycle = d.clock.nextCycle)
    (hcount : e.rig.journal.count (.cycle true) = d.rig.journal.count (.cycle true)) :
    Paced interval first last e := by
  constructor
  · exact hinterval.trans h.capped
  · rw [hnext, hcount]
    exact h.putOff
  · rw [hcount]
    exact h.inTime

theorem paced_unwritten {d : Driven K σ} {interval : K} (hcapped : d.clock.interval = some interval)
    (last : K) : Paced interval d.clock.nextCycle last d.unwritten := by
  constructor
  · exact hcapped
  · have hnone : ((d.unwritten.rig.journal.count (.cycle true) : ℕ) : K) = 0 := Nat.cast_zero
    rw [hnone, zero_mul, add_zero]
    exact le_rfl
  · exact Or.inl rfl

section

variable [IsStrictOrderedRing K]

theorem bound_nonneg {v s e : K} (hv : 0 < v) (hse : s ≤ e) : 0 ≤ v * (e - s + 1 / 10) + 1 := by
  have hspan : 0 ≤ e - s + 1 / 10 := by linarith
  have hdue := mul_nonneg hv.le hspan
  linarith

theorem Paced.count_le {v s e first : K} {d : Driven K (Journaled σ)} (hv : 0 < v) (hse : s ≤ e)
    (hfirst : s - 1 / 10 ≤ first) (h : Paced (1 / v) first e d) :
    (d.rig.journal.count (.cycle true) : K) ≤ v * (e - s + 1 / 10) + 1 := by
  rcases h.inTime with hnone | hlast
  · rw [hnone, Nat.cast_zero]
    exact bound_nonneg hv hse
  · have hspan : (d.rig.journal.count (.cycle true) : K) * (1 / v) ≤ e - s + 1 / 10 + 1 / v := by
      linarith
    calc (d.rig.journal.count (.cycle true) : K)
        = v * (d.rig.journal.count (.cycle true) * (1 / v)) := by field_simp
      _ ≤ v * (e - s + 1 / 10 + 1 / v) := mul_le_mul_of_nonneg_left hspan hv.le
      _ = v * (e - s + 1 / 10) + 1 := by field_simp

end

variable [TimeLine K]

theorem Paced.ticks {interval first last : K} {d : Driven K (Journaled σ)}
    (h : Paced interval first last d) (n : Nat) (s : σ) :
    Paced interval first last (afterTicks d n s) :=
  h.idle rfl rfl (count_cycle_afterTicks d n s)

variable [Exact K]

theorem resumed_eq (now next : K) :
    resumed now next = if 1 / 10 < now - next then now else next := by
  unfold resumed
  rw [Exact.sub_eq, Exact.lagLimit_eq]
  simp only [Exact.lt_iff]

theorem due_iff {c : Clock K} {interval : K} (hinterval : c.interval = some interval) (now : K) :
    due c now = true ↔ c.nextCycle ≤ now := by
  unfold due
  rw [hinterval]
  exact Exact.le_iff _ _

theorem left_advance {c : Clock K} {interval : K} (hinterval : c.interval = some interval)
    (now : K) :
    left (advance now c) =
      { c with
        nextCycle := resumed now (c.nextCycle + interval)
        cycles := c.cycles + 1 } := by
  rw [advance_eq, hinterval]
  simp only [Exact.check_eq, Exact.add_eq, left]

variable [IsStrictOrderedRing K]

theorem le_resumed (now next : K) : next ≤ resumed now next := by
  rw [resumed_eq]
  split
  · linarith
  · exact le_rfl

theorem sub_le_resumed (now next : K) : now - 1 / 10 ≤ resumed now next := by
  rw [resumed_eq]
  split
  · linarith
  · linarith

/-! ## One step -/

/-- After a step whose instruction did not fail, the next one is at most a tenth of a second
late. -/
theorem sub_le_nextCycle {rig : Rig ε σ} {d : Driven K (Journaled σ)} {interval now : K}
    (hinterval : d.clock.interval = some interval) (hends : Ends (step rig.journaled now d))
    (hsmooth : Smooth (left (step rig.journaled now d)).rig.journal) :
    now - 1 / 10 ≤ (left (step rig.journaled now d)).clock.nextCycle := by
  revert hsmooth
  rcases step_cases rig now d with ⟨n, s, hstep⟩ | ⟨n, s, e, hstep⟩ | ⟨n, s, -, -, hstep⟩
  · rw [hstep] at hends
    exact hends.elim
  · rw [hstep]
    exact fun hsmooth => absurd hsmooth (not_smooth_tick _)
  rw [hstep]
  have hticks : (afterTicks d n s).clock.interval = some interval := hinterval
  refine left_proceed (I := fun e => Smooth e.rig.journal → now - 1 / 10 ≤ e.clock.nextCycle) ?_ ?_
  · exact fun e buzzing s deed haudible he hsmooth => he hsmooth.of_append
  · intro e hcycled hsmooth
    cases hcycled with
    | idle hdue =>
      have hlate := mt (due_iff hticks now).2 (Bool.eq_false_iff.1 hdue)
      linarith
    | failed hdue s => exact absurd hsmooth (not_smooth_cycle _)
    | done hdue s =>
      rw [left_advance hticks]
      exact sub_le_resumed now _

namespace Paced

variable {interval first last now : K} {rig : Rig ε σ} {d e : Driven K (Journaled σ)}

theorem cycled (h : Paced interval first last d) (hnow : now ≤ last) (hcycled : Cycled now d e) :
    Paced interval first last e := by
  cases hcycled with
  | idle hdue => exact h
  | failed hdue s => exact h.idle rfl rfl (count_concat_of_ne _ (by decide))
  | done hdue s =>
    have hdue' : d.clock.nextCycle ≤ now := (due_iff h.capped now).1 hdue
    have hresumed := le_resumed now (d.clock.nextCycle + interval)
    have hputOff := h.putOff
    have hcount : ((d.rig.journal ++ [Deed.cycle true]).count (Deed.cycle true) : K) =
        d.rig.journal.count (.cycle true) + 1 := by
      rw [List.count_append, List.count_singleton_self, Nat.cast_add, Nat.cast_one]
    rw [left_advance h.capped]
    constructor
    · exact h.capped
    · rw [hcount]
      linarith
    · rw [hcount]
      right
      linarith

theorem step (h : Paced interval first last d) (hnow : now ≤ last) :
    Paced interval first last (left (step rig.journaled now d)) := by
  rcases step_cases rig now d with ⟨n, s, hstep⟩ | ⟨n, s, e, hstep⟩ | ⟨n, s, -, -, hstep⟩
  · rw [hstep]
    exact h.ticks n s
  · rw [hstep]
    exact (h.ticks n s).idle rfl rfl (count_concat_of_ne _ (by decide))
  · rw [hstep]
    apply left_proceed
    · intro e buzzing s deed haudible he
      have hdeed : deed ≠ .cycle true := fun h => (h ▸ haudible : Deed.Audible (.cycle true))
      exact he.idle rfl rfl (count_concat_of_ne _ hdeed)
    · exact fun e hcycled => (h.ticks n s).cycled hnow hcycled

end Paced

theorem Paced.steps {interval first last : K} {rig : Rig ε σ} {d : Driven K (Journaled σ)}
    {times : List K} (h : Paced interval first last d) (htimes : ∀ t ∈ times, t ≤ last) :
    Paced interval first last (after rig.journaled d (times.map .step)) := by
  induction times generalizing d with
  | nil => exact h
  | cons now rest ih =>
    apply ih (h.step (htimes now List.mem_cons_self))
    exact fun t ht => htimes t (List.mem_cons_of_mem now ht)

/-! ## Any stretch of time -/

theorem sub_le_nextCycle_of_serve {rig : Rig ε σ} {d : Driven K σ} {interval now : K}
    (hcapped : d.clock.interval = some interval) (hends : Ends (step rig now d))
    (hsmooth : Smooth (deeds rig d [.step now])) :
    now - 1 / 10 ≤ (serve rig d (.step now)).clock.nextCycle := by
  have hends' : Ends (step rig.journaled now d.unwritten) := by
    rw [← ends_erase, step_journaled]
    exact hends
  have hserve := serve_journaled rig d.unwritten (.step now)
  have hnext := sub_le_nextCycle hcapped hends' hsmooth
  exact hnext.trans (le_of_eq (congrArg (fun d => d.clock.nextCycle) hserve))

theorem Opens.capped {rig : Rig ε σ} {d : Driven K σ} {interval now : K} {opening : Call K}
    (h : Opens rig d now opening) (hcapped : d.clock.interval = some interval) :
    (serve rig d opening).clock.interval = some interval := by
  cases h with
  | start =>
    rw [serve_start rig d (Exact.check_eq now)]
    exact hcapped
  | step hends hticked hcycle =>
    have hpaced : Paced interval d.clock.nextCycle now
        (left (Clock.step rig.journaled now d.unwritten)) :=
      (paced_unwritten hcapped now).step le_rfl
    have hserve := serve_journaled rig d.unwritten (.step now)
    exact (congrArg (fun d => d.clock.interval) hserve).symm.trans hpaced.capped

/-- After a start or a step at a time, the next instruction is at most a tenth of a second late,
unless there is none. -/
theorem Opens.sub_le_nextCycle_or_dead {rig : Rig ε σ} {d : Driven K σ} {interval now : K}
    {opening : Call K} (h : Opens rig d now opening) (hcapped : d.clock.interval = some interval) :
    now - 1 / 10 ≤ (serve rig d opening).clock.nextCycle ∨ Dead rig (serve rig d opening).rig := by
  cases h with
  | start =>
    have hnext : (serve rig d (.start now)).clock.nextCycle = now := by
      rw [serve_start rig d (Exact.check_eq now)]
      rfl
    left
    linarith
  | step hends hticked hcycle =>
    exact hcycle.imp_left fun hdone => sub_le_nextCycle_of_serve hcapped hends ⟨hticked, hdone⟩

/-- After a start or a step at `s`, a clock at a speed of `v` runs no more instructions by the time
`e` than those due between them, those due in a tenth of a second, and one more.  This holds
however often and in whatever order it is stepped.  After any step whose ticks and whose instruction
did not fail, the next one is at most a tenth of a second late. -/
theorem instructions_bounded (rig : Rig ε σ) {v : K} (hv : 0 < v) :
    (∀ (d : Driven K σ) (s e : K) (opening : Call K) (times : List K),
      d.clock.interval = some (1 / v) → s ≤ e → Opens rig d s opening → (∀ t ∈ times, t ≤ e) →
      ((deeds rig (serve rig d opening) (times.map .step)).count (.cycle true) : K) ≤
        v * (e - s + 1 / 10) + 1) ∧
    ∀ (d : Driven K σ) (now : K), d.clock.interval = some (1 / v) → Ends (step rig now d) →
      Smooth (deeds rig d [.step now]) →
      now - 1 / 10 ≤ (serve rig d (.step now)).clock.nextCycle := by
  constructor
  · intro d s e opening times hcapped hse hopens htimes
    rcases hopens.sub_le_nextCycle_or_dead hcapped with hnext | hdead
    · have hfirst := paced_unwritten (hopens.capped hcapped) e
      exact (hfirst.steps htimes).count_le hv hse hnext
    · rw [List.count_eq_zero.2 (hdead.not_mem_deeds _), Nat.cast_zero]
      exact bound_nonneg hv hse
  · exact fun d now hcapped hends hsmooth => sub_le_nextCycle_of_serve hcapped hends hsmooth

/-- A clock at ten instructions a second does not make up for a stall of a second.  Where its first
instruction after the stall faults, it runs none. -/
theorem jumping_bounded_after_stall :
    (0 : ℚ) < 10 ∧
      Opens Console.rig ⟨new (some (1 / 10)) 0, Console.jumping⟩ (1 : ℚ) (.step 1) ∧
      ((deeds Console.rig
          (serve Console.rig ⟨new (some (1 / 10)) 0, Console.jumping⟩ (.step (1 : ℚ)))
          (([1, 1, 21 / 20] : List ℚ).map .step)).count (.cycle true) : ℚ) ≤
        10 * (21 / 20 - 1 + 1 / 10) + 1 ∧
      1 - 1 / 10 ≤ (serve Console.rig ⟨new (some (1 / 10)) 0, Console.jumping⟩
        (.step (1 : ℚ))).clock.nextCycle ∧
      Deed.cycle false ∈
        deeds Console.rig ⟨new (some (1 / 10)) 0, Console.humming⟩ [.step (1 : ℚ)] ∧
      ((deeds Console.rig
          (serve Console.rig ⟨new (some (1 / 10)) 0, Console.humming⟩ (.step (1 : ℚ)))
          (([1, 1, 21 / 20] : List ℚ).map .step)).count (.cycle true) : ℚ) ≤
        10 * (21 / 20 - 1 + 1 / 10) + 1 := by
  have hspeed : (0 : ℚ) < 10 := by decide +kernel
  have hends : Ends (step Console.rig (1 : ℚ) ⟨new (some (1 / 10)) 0, Console.jumping⟩) := by
    decide +kernel
  have hsmooth : Smooth (deeds Console.rig ⟨new (some (1 / 10)) 0, Console.jumping⟩
      [.step (1 : ℚ)]) := by decide +kernel
  have hopens : Opens Console.rig ⟨new (some (1 / 10)) 0, Console.jumping⟩ (1 : ℚ) (.step 1) :=
    .step hends hsmooth.1 (Or.inl hsmooth.2)
  have hends' : Ends (step Console.rig (1 : ℚ) ⟨new (some (1 / 10)) 0, Console.humming⟩) := by
    decide +kernel
  have hfault : (serve Console.rig ⟨new (some (1 / 10)) 0, Console.humming⟩
      (.step (1 : ℚ))).rig.machine.fault.isSome = true := by decide +kernel
  obtain ⟨f, hf⟩ := Option.isSome_iff_exists.1 hfault
  have hopens' : Opens Console.rig ⟨new (some (1 / 10)) 0, Console.humming⟩ (1 : ℚ) (.step 1) :=
    .step hends' (Console.tick_false_not_mem_deeds _ _) (Or.inr (dead_of_fault hf))
  have htimes : ∀ t ∈ ([1, 1, 21 / 20] : List ℚ), t ≤ 21 / 20 := by decide +kernel
  have hlater : (1 : ℚ) ≤ 21 / 20 := by decide +kernel
  obtain ⟨hcount, hnext⟩ := instructions_bounded (Console.rig (ρ := Grid)) hspeed
  refine ⟨hspeed, hopens, ?_, hnext _ 1 rfl hends hsmooth, by decide +kernel, ?_⟩
  · exact hcount _ 1 (21 / 20) _ _ rfl hlater hopens htimes
  · exact hcount _ 1 (21 / 20) _ _ rfl hlater hopens' htimes

end Clock

end Chip8
