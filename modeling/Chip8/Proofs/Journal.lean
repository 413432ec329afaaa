import Chip8.Proofs.Upkeep

/-!
# The journal of a clock

A rig can keep a journal of what its clock asks of it, and of whether it was done.  The journal is
only ever written: the clock and the rig are what they would have been without it.
-/

namespace Chip8

/-- What a clock asked of its rig, once that was over. -/
inductive Deed
  | tick (done : Bool)
  | cycle (done : Bool)
  /-- The answer whether the sound timer runs, unless there was none. -/
  | sound (on : Option Bool)
  | buzz (on done : Bool)
  /-- The answer to a poll, unless it failed. -/
  | poll (quit : Option Bool)
  | refresh (done : Bool)
  | report (frames cycles : Nat) (done : Bool)
  deriving DecidableEq, Repr

def Deed.Audible : Deed → Prop
  | .sound _ => True
  | .buzz _ _ => True
  | _ => False

theorem count_concat_of_ne (journal : List Deed) {deed other : Deed} (h : other ≠ deed) :
    (journal ++ [other]).count deed = journal.count deed := by
  rw [List.count_append, List.count_singleton, if_neg (by simpa using h), Nat.add_zero]

theorem not_mem_concat {journal : List Deed} {deed other : Deed} (hdeed : other ≠ deed)
    (h : deed ∉ journal) : deed ∉ journal ++ [other] := by
  intro hmem
  rcases List.mem_append.1 hmem with hmem | hmem
  · exact h hmem
  · exact hdeed (List.mem_singleton.1 hmem).symm

structure Journaled (σ : Type) where
  state : σ
  journal : List Deed

def entered {ε σ α : Type} (deed : Option α → Deed) (act : EStateM ε σ α) :
    EStateM ε (Journaled σ) α := fun s =>
  match act s.state with
  | .ok a state => .ok a ⟨state, s.journal ++ [deed (some a)]⟩
  | .error e state => .error e ⟨state, s.journal ++ [deed none]⟩

def Rig.journaled {ε σ : Type} (rig : Rig ε σ) : Rig ε (Journaled σ) where
  tick := entered (fun a => .tick a.isSome) rig.tick
  cycle := entered (fun a => .cycle a.isSome) rig.cycle
  sounding := entered .sound rig.sounding
  buzz on := entered (fun a => .buzz on a.isSome) (rig.buzz on)
  poll := entered .poll rig.poll
  refresh := entered (fun a => .refresh a.isSome) rig.refresh
  report frames cycles :=
    entered (fun a => .report frames cycles a.isSome) (rig.report frames cycles)

def Driven.erased {τ σ : Type} (d : Driven τ (Journaled σ)) : Driven τ σ := ⟨d.clock, d.rig.state⟩

def Driven.unwritten {τ σ : Type} (d : Driven τ σ) : Driven τ (Journaled σ) :=
  ⟨d.clock, ⟨d.rig, []⟩⟩

def erase {τ σ ε α : Type} :
    EStateM.Result ε (Driven τ (Journaled σ)) α → EStateM.Result ε (Driven τ σ) α
  | .ok a d => .ok a d.erased
  | .error e d => .error e d.erased

namespace Clock

variable {τ σ ε α β : Type}

/-- Work on a rig with a journal that comes to the same as work on the rig itself. -/
def Erases (act : Drive τ (Journaled σ) ε α) (plain : Drive τ σ ε α) : Prop :=
  ∀ d, erase (act d) = plain d.erased

theorem left_erase (r : EStateM.Result (Stop ε) (Driven τ (Journaled σ)) α) :
    left (erase r) = (left r).erased := by
  cases r <;> rfl

theorem onRig_entered (deed : Option α → Deed) (act : EStateM ε σ α)
    (d : Driven τ (Journaled σ)) :
    onRig (entered deed act) d =
      match act d.rig.state with
      | .ok a s => .ok a ⟨d.clock, ⟨s, d.rig.journal ++ [deed (some a)]⟩⟩
      | .error e s => .error (.failed e) ⟨d.clock, ⟨s, d.rig.journal ++ [deed none]⟩⟩ := by
  unfold onRig entered
  cases act d.rig.state <;> rfl

namespace Erases

theorem pure (a : α) : Erases (Pure.pure a : Drive τ (Journaled σ) ε α) (Pure.pure a) :=
  fun _ => rfl

theorem throw (e : Stop ε) :
    Erases (MonadExcept.throw e : Drive τ (Journaled σ) ε α) (MonadExcept.throw e) := fun _ => rfl

theorem bind {act : Drive τ (Journaled σ) ε α} {plain : Drive τ σ ε α}
    {next : α → Drive τ (Journaled σ) ε β} {plainNext : α → Drive τ σ ε β}
    (hact : Erases act plain) (hnext : ∀ a, Erases (next a) (plainNext a)) :
    Erases (act >>= next) (plain >>= plainNext) := by
  intro d
  rw [bind_apply, bind_apply, ← hact d]
  cases act d with
  | ok a d => exact hnext a d
  | error e d => rfl

theorem get_bind {next : Driven τ (Journaled σ) → Drive τ (Journaled σ) ε α}
    {plainNext : Driven τ σ → Drive τ σ ε α} (hnext : ∀ d, Erases (next d) (plainNext d.erased)) :
    Erases (MonadState.get >>= next) (MonadState.get >>= plainNext) := fun d => hnext d d

theorem ite {p : Prop} [Decidable p] {act other : Drive τ (Journaled σ) ε α}
    {plain plainOther : Drive τ σ ε α} (hact : Erases act plain)
    (hother : Erases other plainOther) :
    Erases (if p then act else other) (if p then plain else plainOther) := by
  split
  · exact hact
  · exact hother

theorem onRig (deed : Option α → Deed) (act : EStateM ε σ α) :
    Erases (onRig (entered deed act) : Drive τ (Journaled σ) ε α) (onRig act) := by
  intro d
  have hrig : d.erased.rig = d.rig.state := rfl
  unfold Clock.onRig entered
  rw [hrig]
  cases act d.rig.state <;> rfl

theorem onClock (act : EStateM ArithmeticError (Clock τ) α) :
    Erases (onClock act : Drive τ (Journaled σ) ε α) (onClock act) := by
  intro d
  have hclock : d.erased.clock = d.clock := rfl
  unfold Clock.onClock
  rw [hclock]
  cases act d.clock <;> rfl

end Erases

/-! ## Turning the buzzer on and off -/

theorem setBuzzer_journaled (rig : Rig ε σ) (on : Bool) :
    Erases (setBuzzer rig.journaled on : Drive τ (Journaled σ) ε Unit) (setBuzzer rig on) := by
  have hbuzz : Erases (onRig (rig.journaled.buzz on) : Drive τ (Journaled σ) ε Unit)
      (onRig (rig.buzz on)) := Erases.onRig (fun a => .buzz on a.isSome) _
  exact hbuzz.bind fun _ => Erases.onClock _

theorem updateBuzzer_journaled (rig : Rig ε σ) :
    Erases (updateBuzzer rig.journaled : Drive τ (Journaled σ) ε Unit) (updateBuzzer rig) := by
  have hsounding : Erases (onRig rig.journaled.sounding : Drive τ (Journaled σ) ε Bool)
      (onRig rig.sounding) := Erases.onRig .sound _
  apply hsounding.bind
  intro on
  apply Erases.get_bind
  intro d
  apply Erases.ite
  · exact setBuzzer_journaled rig on
  · exact Erases.pure _

def Finished.erased (f : Finished τ (Journaled σ) ε) : Finished τ σ ε :=
  ⟨f.ending, f.state.erased, f.rest⟩

theorem finish_journaled (rig : Rig ε σ) (ending : Ending ε) (d : Driven τ (Journaled σ))
    (rest : List τ) :
    (finish rig.journaled ending d rest).erased = finish rig ending d.erased rest := by
  unfold finish
  change _ = if d.clock.buzzing then _ else _
  split
  · rw [← setBuzzer_journaled rig false d]
    cases setBuzzer rig.journaled false d <;> rfl
  · rfl

theorem close_journaled (rig : Rig ε σ) (phase : Phase τ) (ending : Ending ε)
    (d : Driven τ (Journaled σ)) (rest : List τ) :
    (close rig.journaled phase ending d rest).erased = close rig phase ending d.erased rest := by
  cases phase with
  | starting => rfl
  | passing => exact finish_journaled rig ending d rest
  | waiting time => exact finish_journaled rig ending d rest

/-! ## Steps and runs -/

variable [TimeLine τ] (rig : Rig ε σ)

theorem tickUntil_journaled (now : τ) (fuel : Nat) :
    Erases (tickUntil rig.journaled now fuel) (tickUntil rig now fuel) := by
  have htick : Erases (onRig rig.journaled.tick : Drive τ (Journaled σ) ε Unit)
      (onRig rig.tick) := Erases.onRig (fun a => .tick a.isSome) _
  induction fuel with
  | zero =>
    apply Erases.get_bind
    intro d
    exact Erases.ite (Erases.throw _) (Erases.pure _)
  | succ fuel ih =>
    apply Erases.get_bind
    intro d
    apply Erases.ite
    · exact htick.bind fun _ => (Erases.onClock _).bind fun _ => ih
    · exact Erases.pure _

theorem catchUp_journaled (now : τ) : Erases (catchUp rig.journaled now) (catchUp rig now) :=
  Erases.get_bind fun _ => tickUntil_journaled rig now _

theorem runDue_journaled (now : τ) : Erases (runDue rig.journaled now) (runDue rig now) := by
  have hcycle : Erases (onRig rig.journaled.cycle : Drive τ (Journaled σ) ε Unit)
      (onRig rig.cycle) := Erases.onRig (fun a => .cycle a.isSome) _
  apply Erases.get_bind
  intro d
  apply Erases.ite
  · exact hcycle.bind fun _ => (Erases.onClock _).bind fun _ => Erases.pure _
  · exact Erases.pure _

theorem step_journaled (now : τ) : Erases (step rig.journaled now) (step rig now) :=
  (catchUp_journaled rig now).bind fun _ => (runDue_journaled rig now).bind fun ran =>
    (updateBuzzer_journaled rig).bind fun _ => Erases.pure ran

theorem reportRates_journaled (now : τ) :
    Erases (reportRates rig.journaled now) (reportRates rig now) := by
  have hreport : ∀ frames cycles,
      Erases (onRig (rig.journaled.report frames cycles) : Drive τ (Journaled σ) ε Unit)
        (onRig (rig.report frames cycles)) :=
    fun frames cycles => Erases.onRig (fun a => .report frames cycles a.isSome) _
  apply Erases.get_bind
  intro d
  apply Erases.ite
  · split
    · exact Erases.throw _
    · exact (Erases.onClock _).bind fun _ => (hreport _ _).bind fun _ => Erases.onClock _
  · exact Erases.pure _

theorem showFrame_journaled (now : τ) :
    Erases (showFrame rig.journaled now) (showFrame rig now) := by
  have hpoll : Erases (onRig rig.journaled.poll : Drive τ (Journaled σ) ε Bool)
      (onRig rig.poll) := Erases.onRig .poll _
  have hrefresh : Erases (onRig rig.journaled.refresh : Drive τ (Journaled σ) ε Unit)
      (onRig rig.refresh) := Erases.onRig (fun a => .refresh a.isSome) _
  apply Erases.get_bind
  intro d
  apply Erases.ite
  · apply hpoll.bind
    intro quit
    apply Erases.ite
    · exact Erases.pure _
    · exact (Erases.onClock _).bind fun _ => (Erases.onClock _).bind fun _ =>
        hrefresh.bind fun _ => (Erases.onClock _).bind fun _ => Erases.pure _
  · exact Erases.pure _

theorem observe_journaled (phase : Phase τ) (now : τ) :
    Erases (observe rig.journaled phase now) (observe rig phase now) := by
  cases phase with
  | starting => exact (Erases.onClock _).bind fun _ => Erases.pure _
  | passing =>
    apply (reportRates_journaled rig now).bind
    intro _
    apply (showFrame_journaled rig now).bind
    intro quit
    apply Erases.ite
    · exact Erases.pure _
    · exact (step_journaled rig now).bind fun _ => Erases.get_bind fun _ => Erases.pure _
  | waiting time => exact Erases.pure _

theorem runFrom_journaled (phase : Phase τ) (readings : List τ) (d : Driven τ (Journaled σ)) :
    (runFrom rig.journaled phase readings d).erased = runFrom rig phase readings d.erased := by
  induction readings generalizing phase d with
  | nil => exact close_journaled rig phase .unread d []
  | cons now rest ih =>
    unfold runFrom
    rw [← observe_journaled rig phase now d]
    cases observe rig.journaled phase now d with
    | error e d => exact close_journaled rig phase _ d rest
    | ok next d =>
      cases next with
      | none => exact close_journaled rig phase .quit d rest
      | some phase => exact ih phase d

theorem serve_journaled (d : Driven τ (Journaled σ)) (call : Call τ) :
    (serve rig.journaled d call).erased = serve rig d.erased call := by
  cases call with
  | start now => exact (left_erase _).symm.trans (congrArg left (Erases.onClock _ d))
  | step now => exact (left_erase _).symm.trans (congrArg left (step_journaled rig now d))
  | run readings => exact congrArg Finished.state (runFrom_journaled rig .starting readings d)

/-- Whatever is asked of a clock, the journal changes nothing else. -/
theorem after_journaled (d : Driven τ (Journaled σ)) (calls : List (Call τ)) :
    (after rig.journaled d calls).erased = after rig d.erased calls := by
  induction calls generalizing d with
  | nil => rfl
  | cons call rest ih => rw [after_cons, after_cons, ih, serve_journaled]

theorem keeps_mem_entered (deed : Deed) (entry : Option α → Deed) (act : EStateM ε σ α) :
    Keeps (fun s => deed ∈ s.journal) (entered entry act) := by
  intro s hs
  unfold entered
  cases act s.state with
  | ok a t => exact List.mem_append_left _ hs
  | error e t => exact List.mem_append_left _ hs

theorem mem_journal_after {deed : Deed} {d : Driven τ (Journaled σ)} (h : deed ∈ d.rig.journal)
    (calls : List (Call τ)) : deed ∈ (after rig.journaled d calls).rig.journal := by
  have hkeeps : rig.journaled.Keeps fun s => deed ∈ s.journal := by
    constructor
    case tick => exact keeps_mem_entered deed (fun a => .tick a.isSome) rig.tick
    case cycle => exact keeps_mem_entered deed (fun a => .cycle a.isSome) rig.cycle
    case sounding => exact keeps_mem_entered deed .sound rig.sounding
    case buzz => exact fun on => keeps_mem_entered deed (fun a => .buzz on a.isSome) (rig.buzz on)
    case poll => exact keeps_mem_entered deed .poll rig.poll
    case refresh => exact keeps_mem_entered deed (fun a => .refresh a.isSome) rig.refresh
    case report =>
      exact fun frames cycles => keeps_mem_entered deed
        (fun a => .report frames cycles a.isSome) (rig.report frames cycles)
  exact (upheld_of_keeps hkeeps).after calls h

/-- Work does not enter a deed that it never amounts to. -/
theorem keeps_not_mem_entered {I : σ → Prop} {deed : Deed} {entry : Option α → Deed}
    {act : EStateM ε σ α} (hact : Keeps I act) (hdeed : ∀ s, I s → entry (answer (act s)) ≠ deed) :
    Keeps (fun s => I s.state ∧ deed ∉ s.journal) (entered entry act) := by
  intro s hs
  have hleft := hact s.state hs.1
  have hother := hdeed s.state hs.1
  unfold entered
  cases hrun : act s.state with
  | ok a t =>
    rw [hrun] at hleft hother
    exact ⟨hleft, not_mem_concat hother hs.2⟩
  | error e t =>
    rw [hrun] at hleft hother
    exact ⟨hleft, not_mem_concat hother hs.2⟩

/-- What a clock asks of its rig in the course of some calls. -/
def deeds (d : Driven τ σ) (calls : List (Call τ)) : List Deed :=
  (after rig.journaled d.unwritten calls).rig.journal

inductive Enters (rig : Rig ε σ) (s : σ) : Deed → Prop
  | tick : Enters rig s (.tick (answer (rig.tick s)).isSome)
  | cycle : Enters rig s (.cycle (answer (rig.cycle s)).isSome)
  | sound : Enters rig s (.sound (answer (rig.sounding s)))
  | buzz (on : Bool) : Enters rig s (.buzz on (answer (rig.buzz on s)).isSome)
  | poll : Enters rig s (.poll (answer (rig.poll s)))
  | refresh : Enters rig s (.refresh (answer (rig.refresh s)).isSome)
  | report (frames cycles : Nat) :
    Enters rig s (.report frames cycles (answer (rig.report frames cycles s)).isSome)

/-- A deed that no request amounts to is never entered. -/
theorem not_mem_deeds {rig : Rig ε σ} {I : σ → Prop} {deed : Deed} (hkeeps : rig.Keeps I)
    (hnever : ∀ s, I s → ¬Enters rig s deed) {d : Driven τ σ} (hd : I d.rig)
    (calls : List (Call τ)) : deed ∉ deeds rig d calls := by
  have hentered : ∀ {α : Type} (entry : Option α → Deed) {act : EStateM ε σ α}, Keeps I act →
      (∀ s, Enters rig s (entry (answer (act s)))) →
      Keeps (fun s => I s.state ∧ deed ∉ s.journal) (entered entry act) :=
    fun entry act hact hmay => keeps_not_mem_entered hact fun s hs hdeed =>
      hnever s hs (hdeed ▸ hmay s)
  have hjournaled : rig.journaled.Keeps fun s => I s.state ∧ deed ∉ s.journal := by
    constructor
    case tick => exact hentered (fun a => .tick a.isSome) hkeeps.tick fun _ => .tick
    case cycle => exact hentered (fun a => .cycle a.isSome) hkeeps.cycle fun _ => .cycle
    case sounding => exact hentered .sound hkeeps.sounding fun _ => .sound
    case buzz =>
      exact fun on => hentered (fun a => .buzz on a.isSome) (hkeeps.buzz on) fun _ => .buzz on
    case poll => exact hentered .poll hkeeps.poll fun _ => .poll
    case refresh => exact hentered (fun a => .refresh a.isSome) hkeeps.refresh fun _ => .refresh
    case report =>
      exact fun frames cycles => hentered (fun a => .report frames cycles a.isSome)
        (hkeeps.report frames cycles) fun _ => .report frames cycles
  exact ((upheld_of_keeps hjournaled).after calls ⟨hd, List.not_mem_nil⟩).2

theorem keeps_trivially (rig : Rig ε σ) : rig.Keeps fun _ => True := by
  constructor <;> intros <;> intro _ _ <;> trivial

theorem tick_false_not_mem_deeds {rig : Rig ε σ} (hticks : ∀ s, ∃ t, rig.tick s = .ok () t)
    (d : Driven τ σ) (calls : List (Call τ)) : Deed.tick false ∉ deeds rig d calls := by
  refine not_mem_deeds (keeps_trivially rig) (fun s _ hdeed => ?_) trivial calls
  obtain ⟨t, ht⟩ := hticks s
  generalize hrefused : Deed.tick false = deed at hdeed
  cases hdeed with
  | tick => simp [ht, answer] at hrefused
  | _ => cases hrefused

end Clock

end Chip8
