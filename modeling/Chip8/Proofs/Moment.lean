import Chip8.Proofs.Journal

/-!
# The work of a moment

A start sets the schedules.  A step makes up for ticks, runs an instruction if one is due, and has
the buzzer follow the sound timer.  Each part touches its own fields of the clock, and adds deeds
of its own kind to the journal.
-/

namespace Chip8.Clock

variable {τ σ ε α : Type}

/-- Whether work comes to an end by itself: it goes through, or a request to the rig fails. -/
def Ends : EStateM.Result (Stop ε) σ α → Prop
  | .ok _ _ => True
  | .error (.failed _) _ => True
  | .error _ _ => False

instance : (r : EStateM.Result (Stop ε) σ α) → Decidable (Ends r)
  | .ok _ _ => isTrue trivial
  | .error (.failed _) _ => isTrue trivial
  | .error (.badTime _) _ => isFalse id
  | .error .stalled _ => isFalse id

theorem ends_erase (r : EStateM.Result (Stop ε) (Driven τ (Journaled σ)) α) :
    Ends (erase r) ↔ Ends r := by
  cases r with
  | ok a d => exact Iff.rfl
  | error e d => cases e <;> exact Iff.rfl

inductive Turned (rig : Rig ε σ) (on : Bool) (d : Driven τ (Journaled σ)) :
    EStateM.Result (Stop ε) (Driven τ (Journaled σ)) Unit → Prop
  | refused (e : ε) (s : σ) :
    Turned rig on d (.error (.failed e) ⟨d.clock, ⟨s, d.rig.journal ++ [.buzz on false]⟩⟩)
  | turned (s : σ) (hbuzz : rig.buzz on d.rig.state = .ok () s) :
    Turned rig on d
      (.ok () ⟨{ d.clock with buzzing := on }, ⟨s, d.rig.journal ++ [.buzz on true]⟩⟩)

theorem turned_setBuzzer (rig : Rig ε σ) (on : Bool) (d : Driven τ (Journaled σ)) :
    Turned rig on d (setBuzzer rig.journaled on d) := by
  have hentered : rig.journaled.buzz on =
      entered (fun a => .buzz on a.isSome) (rig.buzz on) := rfl
  unfold setBuzzer
  rw [bind_apply, hentered]
  unfold onRig entered
  cases hbuzz : rig.buzz on d.rig.state with
  | ok a s => exact .turned s hbuzz
  | error e s => exact .refused e s

theorem updateBuzzer_eq (rig : Rig ε σ) (d : Driven τ σ) :
    updateBuzzer rig d =
      match rig.sounding d.rig with
      | .ok on s =>
        if on = d.clock.buzzing then .ok () { d with rig := s }
        else setBuzzer rig on { d with rig := s }
      | .error e s => .error (.failed e) { d with rig := s } := by
  unfold updateBuzzer
  rw [bind_apply]
  unfold onRig
  cases rig.sounding d.rig with
  | ok on s =>
    change (if on ≠ d.clock.buzzing then setBuzzer rig on else pure ()) { d with rig := s } =
      if on = d.clock.buzzing then .ok () { d with rig := s }
      else setBuzzer rig on { d with rig := s }
    by_cases h : on = d.clock.buzzing
    · rw [if_neg (not_not_intro h), if_pos h]
      rfl
    · rw [if_pos h, if_neg h]
  | error e s => rfl

/-- What is no matter of the sound is kept when the buzzer is made to follow the sound timer. -/
theorem keeps_updateBuzzer {rig : Rig ε σ} {I : Driven τ (Journaled σ) → Prop}
    (haudible : ∀ d buzzing s deed, Deed.Audible deed → I d →
      I ⟨{ d.clock with buzzing }, ⟨s, d.rig.journal ++ [deed]⟩⟩) :
    Keeps I (updateBuzzer rig.journaled) := by
  intro d hd
  have hentered : rig.journaled.sounding = entered .sound rig.sounding := rfl
  rw [updateBuzzer_eq, hentered]
  unfold entered
  cases rig.sounding d.rig.state with
  | error e s => exact haudible d d.clock.buzzing s (.sound none) trivial hd
  | ok on s =>
    have hasked := haudible d d.clock.buzzing s (.sound (some on)) trivial hd
    dsimp only
    split
    · exact hasked
    · have hturned := turned_setBuzzer rig on ⟨d.clock, ⟨s, d.rig.journal ++ [.sound (some on)]⟩⟩
      generalize setBuzzer rig.journaled on _ = r at hturned
      cases hturned with
      | refused e t => exact haudible _ d.clock.buzzing t (.buzz on false) trivial hasked
      | turned t hbuzz => exact haudible _ on t (.buzz on true) trivial hasked

variable [TimeLine τ]

open TimeLine

theorem start_eq (now : τ) (c : Clock τ) :
    start now c =
      match check now with
      | .ok () => .ok () { new c.interval now with buzzing := c.buzzing }
      | .error e => .error e { c with nextCycle := now } := by
  unfold start checked
  simp only [bind_apply, modify_apply]
  cases check now <;> rfl

theorem serve_start (rig : Rig ε σ) (d : Driven τ σ) {now : τ} (hcheck : check now = .ok ()) :
    serve rig d (.start now) =
      { d with clock := { new d.clock.interval now with buzzing := d.clock.buzzing } } := by
  simp only [serve, onClock, start_eq, hcheck, left]

/-! ## Ticks -/

def laterTick (next : τ) : Nat → τ
  | 0 => next
  | k + 1 => add (laterTick next k) tickSpan

theorem laterTick_add (next : τ) (j k : Nat) :
    laterTick (laterTick next j) k = laterTick next (j + k) := by
  induction k with
  | zero => rfl
  | succ k ih => rw [← Nat.add_assoc, laterTick, laterTick, ih]

theorem laterTick_add_tickSpan (next : τ) (k : Nat) :
    laterTick (add next tickSpan) k = laterTick next (k + 1) := by
  rw [Nat.add_comm k 1, ← laterTick_add next 1 k]
  rfl

def afterTicks (d : Driven τ (Journaled σ)) (n : Nat) (s : σ) : Driven τ (Journaled σ) :=
  ⟨{ d.clock with nextTick := laterTick d.clock.nextTick n },
    ⟨s, d.rig.journal ++ List.replicate n (.tick true)⟩⟩

theorem afterTicks_zero (d : Driven τ (Journaled σ)) : afterTicks d 0 d.rig.state = d := by
  unfold afterTicks
  rw [List.replicate_zero, List.append_nil]
  rfl

theorem afterTicks_afterTicks (d : Driven τ (Journaled σ)) (n : Nat) (s t : σ) :
    afterTicks (afterTicks d 1 s) n t = afterTicks d (n + 1) t := by
  unfold afterTicks
  rw [List.append_assoc, List.replicate_append_replicate, Nat.add_comm 1 n]
  dsimp only
  rw [laterTick_add, Nat.add_comm 1 n]

theorem count_cycle_afterTicks (d : Driven τ (Journaled σ)) (n : Nat) (s : σ) :
    (afterTicks d n s).rig.journal.count (.cycle true) =
      d.rig.journal.count (.cycle true) := by
  unfold afterTicks
  rw [List.count_append, List.count_replicate, if_neg (by decide), Nat.add_zero]

inductive CaughtUp (now : τ) (d : Driven τ (Journaled σ)) :
    EStateM.Result (Stop ε) (Driven τ (Journaled σ)) Unit → Prop
  | stalled (n : Nat) (s : σ) : CaughtUp now d (.error .stalled (afterTicks d n s))
  | failed (n : Nat) (s : σ) (e : ε) :
    CaughtUp now d
      (.error (.failed e)
        ⟨(afterTicks d n s).clock, ⟨s, (afterTicks d n s).rig.journal ++ [.tick false]⟩⟩)
  | ticked (n : Nat) (s : σ) (hlast : le (laterTick d.clock.nextTick n) now = false)
      (hbefore : ∀ j < n, le (laterTick d.clock.nextTick j) now = true) :
    CaughtUp now d (.ok () (afterTicks d n s))

theorem CaughtUp.tick_first {now : τ} {d : Driven τ (Journaled σ)} {s : σ}
    {r : EStateM.Result (Stop ε) (Driven τ (Journaled σ)) Unit}
    (hdue : le d.clock.nextTick now = true) (h : CaughtUp now (afterTicks d 1 s) r) :
    CaughtUp now d r := by
  have hnext : (afterTicks d 1 s).clock.nextTick = laterTick d.clock.nextTick 1 := rfl
  cases h with
  | stalled n t =>
    rw [afterTicks_afterTicks]
    exact .stalled (n + 1) t
  | failed n t e =>
    rw [afterTicks_afterTicks]
    exact .failed (n + 1) t e
  | ticked n t hlast hbefore =>
    rw [hnext, laterTick_add, Nat.add_comm 1 n] at hlast
    rw [afterTicks_afterTicks]
    refine .ticked (n + 1) t hlast ?_
    intro j hj
    cases j with
    | zero => exact hdue
    | succ j =>
      have hle := hbefore j (Nat.lt_of_succ_lt_succ hj)
      rwa [hnext, laterTick_add, Nat.add_comm 1 j] at hle

theorem CaughtUp.idle {now : τ} {d : Driven τ (Journaled σ)}
    (h : le d.clock.nextTick now = false) :
    CaughtUp now d (.ok () d : EStateM.Result (Stop ε) _ _) := by
  have hticked := CaughtUp.ticked (ε := ε) (d := d) 0 d.rig.state h
    fun j hj => absurd hj (Nat.not_lt_zero j)
  rwa [afterTicks_zero] at hticked

theorem caughtUp_tickUntil (rig : Rig ε σ) (now : τ) (fuel : Nat) (d : Driven τ (Journaled σ)) :
    CaughtUp now d (tickUntil rig.journaled now fuel d) := by
  induction fuel generalizing d with
  | zero =>
    unfold tickUntil
    rw [bind_apply, get_apply]
    dsimp only
    split
    · have hstalled : CaughtUp now d (.error .stalled (afterTicks d 0 d.rig.state) :
          EStateM.Result (Stop ε) _ Unit) := .stalled 0 d.rig.state
      rwa [afterTicks_zero] at hstalled
    · rename_i hlate
      exact .idle (Bool.eq_false_iff.2 hlate)
  | succ fuel ih =>
    have hentered : rig.journaled.tick = entered (fun a => .tick a.isSome) rig.tick := rfl
    unfold tickUntil
    rw [bind_apply, get_apply]
    dsimp only
    split
    · rename_i hdue
      rw [bind_apply, hentered, onRig_entered]
      cases rig.tick d.rig.state with
      | error e s =>
        have hfailed : CaughtUp now d _ := .failed 0 s e
        unfold afterTicks at hfailed
        rwa [List.replicate_zero, List.append_nil] at hfailed
      | ok u s => exact (ih (afterTicks d 1 s)).tick_first hdue
    · rename_i hlate
      exact .idle (Bool.eq_false_iff.2 hlate)

theorem caughtUp_catchUp (rig : Rig ε σ) (now : τ) (d : Driven τ (Journaled σ)) :
    CaughtUp now d (catchUp rig.journaled now d) :=
  caughtUp_tickUntil rig now (patience now d.clock.nextTick) d

/-! ## Instructions -/

/-- The time of the next instruction, once one was run that was due a span before `next`. -/
def resumed (now next : τ) : τ := if lt lagLimit (sub now next) then now else next

theorem advance_eq (now : τ) (c : Clock τ) :
    advance now c =
      match c.interval with
      | none => .ok () { c with cycles := c.cycles + 1 }
      | some interval =>
        match check c.nextCycle, check now with
        | .error e, _ => .error e c
        | .ok (), .error e => .error e { c with nextCycle := add c.nextCycle interval }
        | .ok (), .ok () =>
          .ok ()
            { c with
              nextCycle := resumed now (add c.nextCycle interval)
              cycles := c.cycles + 1 } := by
  obtain ⟨interval, buzzing, nextCycle, nextTick, nextFrame, nextReport, frames, cycles⟩ := c
  cases interval with
  | none => rfl
  | some interval =>
    unfold advance resumed checked
    simp only [bind_apply, get_apply, modify_apply]
    cases check nextCycle with
    | error e => rfl
    | ok u =>
      cases check now with
      | error e => rfl
      | ok u =>
        simp only [pure, EStateM.pure]
        split <;> rfl

theorem exists_left_advance (now : τ) (c : Clock τ) :
    ∃ nextCycle cycles, left (advance now c) = { c with nextCycle, cycles } := by
  rw [advance_eq]
  split
  · exact ⟨c.nextCycle, _, rfl⟩
  · split
    · exact ⟨c.nextCycle, c.cycles, rfl⟩
    · exact ⟨_, c.cycles, rfl⟩
    · exact ⟨_, _, rfl⟩

inductive Cycled (now : τ) (d : Driven τ (Journaled σ)) : Driven τ (Journaled σ) → Prop
  | idle (hdue : due d.clock now = false) : Cycled now d d
  | failed (hdue : due d.clock now = true) (s : σ) :
    Cycled now d ⟨d.clock, ⟨s, d.rig.journal ++ [.cycle false]⟩⟩
  | done (hdue : due d.clock now = true) (s : σ) :
    Cycled now d ⟨left (advance now d.clock), ⟨s, d.rig.journal ++ [.cycle true]⟩⟩

theorem cycled_runDue (rig : Rig ε σ) (now : τ) (d : Driven τ (Journaled σ)) :
    Cycled now d (left (runDue rig.journaled now d)) := by
  change Cycled now d (left ((if due d.clock now then (do
    onRig (entered (fun a => .cycle a.isSome) rig.cycle)
    onClock (advance now)
    return true) else return false : Drive τ (Journaled σ) ε Bool) d))
  cases hdue : due d.clock now with
  | false => exact .idle hdue
  | true =>
    rw [if_pos rfl, bind_apply]
    unfold onRig entered
    cases rig.cycle d.rig.state with
    | error e s => exact .failed hdue s
    | ok u s =>
      have hdone := Cycled.done hdue s
      dsimp only
      rw [bind_apply]
      unfold onClock
      dsimp only
      cases hadvance : advance now d.clock with
      | error e c =>
        rw [hadvance] at hdone
        exact hdone
      | ok u c =>
        rw [hadvance] at hdone
        exact hdone

/-! ## Steps -/

/-- What a step does once it has made up for ticks. -/
def proceed (rig : Rig ε σ) (now : τ) : Drive τ σ ε Bool := do
  let ran ← runDue rig now
  updateBuzzer rig
  return ran

/-- What is no matter of the sound holds after a step if it holds after its instruction. -/
theorem left_proceed {rig : Rig ε σ} {now : τ} {d : Driven τ (Journaled σ)}
    {I : Driven τ (Journaled σ) → Prop}
    (haudible : ∀ e buzzing s deed, Deed.Audible deed → I e →
      I ⟨{ e.clock with buzzing }, ⟨s, e.rig.journal ++ [deed]⟩⟩)
    (hcycled : ∀ e, Cycled now d e → I e) : I (left (proceed rig.journaled now d)) := by
  apply Keeps.left_bind (hcycled _ (cycled_runDue rig now d))
  exact fun ran => (keeps_updateBuzzer haudible).bind fun _ => Keeps.pure ran

/-- A step stops in the midst of its ticks, or it goes on from there. -/
theorem step_cases (rig : Rig ε σ) (now : τ) (d : Driven τ (Journaled σ)) :
    (∃ n s, step rig.journaled now d = .error .stalled (afterTicks d n s)) ∨
      (∃ n s e, step rig.journaled now d =
        .error (.failed e)
          ⟨(afterTicks d n s).clock, ⟨s, (afterTicks d n s).rig.journal ++ [.tick false]⟩⟩) ∨
      ∃ n s, le (laterTick d.clock.nextTick n) now = false ∧
        (∀ j < n, le (laterTick d.clock.nextTick j) now = true) ∧
        step rig.journaled now d = proceed rig.journaled now (afterTicks d n s) := by
  have hcaught := caughtUp_catchUp rig now d
  have hstep : step rig.journaled now d =
      (catchUp rig.journaled now >>= fun _ => proceed rig.journaled now) d := rfl
  rw [bind_apply] at hstep
  generalize catchUp rig.journaled now d = r at hcaught hstep
  cases hcaught with
  | stalled n s => exact Or.inl ⟨n, s, hstep⟩
  | failed n s e => exact Or.inr (Or.inl ⟨n, s, e, hstep⟩)
  | ticked n s hlast hbefore => exact Or.inr (Or.inr ⟨n, s, hlast, hbefore, hstep⟩)

end Chip8.Clock
