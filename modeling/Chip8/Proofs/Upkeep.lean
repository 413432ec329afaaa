import Chip8.Clock.Run

/-!
# What the work of a clock keeps

A clock is started, stepped and run.  Whatever the calls are and however each of them ends, what
every part of a clock's work keeps still holds after all of them.
-/

namespace Chip8

/-- The state that work leaves, also when it fails. -/
def left {ε σ α : Type} : EStateM.Result ε σ α → σ
  | .ok _ s => s
  | .error _ s => s

/-- What work answers, unless it fails. -/
def answer {ε σ α : Type} : EStateM.Result ε σ α → Option α
  | .ok a _ => some a
  | .error _ _ => none

theorem bind_apply {ε σ α β : Type} (act : EStateM ε σ α) (next : α → EStateM ε σ β) (s : σ) :
    (act >>= next) s =
      match act s with
      | .ok a t => next a t
      | .error e t => .error e t := rfl

theorem get_apply {ε σ : Type} (s : σ) : (get : EStateM ε σ σ) s = .ok s s := rfl

theorem modify_apply {ε σ : Type} (f : σ → σ) (s : σ) :
    (modify f : EStateM ε σ Unit) s = .ok () (f s) := rfl

/-- What holds before the work holds after it, also when it fails. -/
def Keeps {ε σ α : Type} (I : σ → Prop) (act : EStateM ε σ α) : Prop := ∀ s, I s → I (left (act s))

structure Rig.Keeps {ε σ : Type} (rig : Rig ε σ) (I : σ → Prop) : Prop where
  tick : Chip8.Keeps I rig.tick
  cycle : Chip8.Keeps I rig.cycle
  sounding : Chip8.Keeps I rig.sounding
  buzz : ∀ on, Chip8.Keeps I (rig.buzz on)
  poll : Chip8.Keeps I rig.poll
  refresh : Chip8.Keeps I rig.refresh
  report : ∀ frames cycles, Chip8.Keeps I (rig.report frames cycles)

namespace Keeps

section

variable {ε σ α β : Type} {I : σ → Prop}

theorem pure (a : α) : Keeps I (Pure.pure a : EStateM ε σ α) := fun _ hs => hs

theorem throw (e : ε) : Keeps I (MonadExcept.throw e : EStateM ε σ α) := fun _ hs => hs

theorem left_bind {act : EStateM ε σ α} {next : α → EStateM ε σ β} {s : σ}
    (hleft : I (left (act s))) (hnext : ∀ a, Keeps I (next a)) : I (left ((act >>= next) s)) := by
  rw [bind_apply]
  cases hrun : act s with
  | ok a t =>
    rw [hrun] at hleft
    exact hnext a t hleft
  | error e t =>
    rw [hrun] at hleft
    exact hleft

theorem bind {act : EStateM ε σ α} {next : α → EStateM ε σ β} (hact : Keeps I act)
    (hnext : ∀ a, Keeps I (next a)) : Keeps I (act >>= next) :=
  fun s hs => left_bind (hact s hs) hnext

theorem get_bind {next : σ → EStateM ε σ α} (hnext : ∀ s, Keeps I (next s)) :
    Keeps I (MonadState.get >>= next) := fun s hs => hnext s s hs

theorem ite {p : Prop} [Decidable p] {act other : EStateM ε σ α} (hact : Keeps I act)
    (hother : Keeps I other) : Keeps I (if p then act else other) := by
  split
  · exact hact
  · exact hother

end

variable {τ σ ε α : Type} {I : Driven τ σ → Prop}

theorem onRig {act : EStateM ε σ α}
    (h : ∀ d : Driven τ σ, I d → I { d with rig := left (act d.rig) }) :
    Keeps I (Clock.onRig act) := by
  intro d hd
  have hleft := h d hd
  unfold Clock.onRig
  cases hact : act d.rig with
  | ok a s =>
    rw [hact] at hleft
    exact hleft
  | error e s =>
    rw [hact] at hleft
    exact hleft

theorem onClock {act : EStateM ArithmeticError (Clock τ) α}
    (h : ∀ d : Driven τ σ, I d → I { d with clock := left (act d.clock) }) :
    Keeps I (Clock.onClock act : Clock.Drive τ σ ε α) := by
  intro d hd
  have hleft := h d hd
  unfold Clock.onClock
  cases hact : act d.clock with
  | ok a c =>
    rw [hact] at hleft
    exact hleft
  | error e c =>
    rw [hact] at hleft
    exact hleft

theorem modify {f : Clock τ → Clock τ}
    (hf : ∀ d : Driven τ σ, I d → I { d with clock := f d.clock }) :
    Keeps I (Clock.onClock (MonadState.modifyGet fun c => ((), f c)) : Clock.Drive τ σ ε Unit) :=
  onClock hf

end Keeps

namespace Clock

variable {τ σ ε : Type} [TimeLine τ]

inductive Call (τ : Type)
  | start (now : τ)
  | step (now : τ)
  | run (readings : List τ)

def serve (rig : Rig ε σ) (d : Driven τ σ) : Call τ → Driven τ σ
  | .start now => left ((onClock (start now) : Drive τ σ ε Unit) d)
  | .step now => left (step rig now d)
  | .run readings => (run rig readings d).state

theorem serve_step (rig : Rig ε σ) (d : Driven τ σ) (now : τ) :
    serve rig d (.step now) = left (step rig now d) := rfl

def after (rig : Rig ε σ) (d : Driven τ σ) : List (Call τ) → Driven τ σ
  | [] => d
  | call :: rest => after rig (serve rig d call) rest

@[simp] theorem after_nil (rig : Rig ε σ) (d : Driven τ σ) : after rig d [] = d := rfl

@[simp] theorem after_cons (rig : Rig ε σ) (d : Driven τ σ) (call : Call τ)
    (rest : List (Call τ)) : after rig d (call :: rest) = after rig (serve rig d call) rest := rfl

theorem after_append (rig : Rig ε σ) (d : Driven τ σ) (calls more : List (Call τ)) :
    after rig d (calls ++ more) = after rig (after rig d calls) more := by
  induction calls generalizing d with
  | nil => rfl
  | cons call rest ih => exact ih (serve rig d call)

structure Upheld (rig : Rig ε σ) (I : Driven τ σ → Prop) : Prop where
  start : ∀ now, Keeps I (onClock (start now) : Drive τ σ ε Unit)
  reportRates : ∀ now, Keeps I (reportRates rig now)
  showFrame : ∀ now, Keeps I (showFrame rig now)
  catchUp : ∀ now, Keeps I (catchUp rig now)
  runDue : ∀ now, Keeps I (runDue rig now)
  updateBuzzer : Keeps I (updateBuzzer rig)
  /-- A run turns the buzzer off at its end, if it is on. -/
  quieten : ∀ d, I d → d.clock.buzzing = true → I (left (setBuzzer rig false d))

namespace Upheld

variable {rig : Rig ε σ} {I : Driven τ σ → Prop}

theorem step (h : Upheld rig I) (now : τ) : Keeps I (step rig now) :=
  (h.catchUp now).bind fun _ => (h.runDue now).bind fun ran =>
    h.updateBuzzer.bind fun _ => Keeps.pure ran

theorem pass (h : Upheld rig I) (now : τ) : Keeps I (pass rig now) := by
  apply (h.reportRates now).bind
  intro _
  apply (h.showFrame now).bind
  intro quit
  apply Keeps.ite
  · exact Keeps.pure none
  · apply (h.step now).bind
    intro _
    apply Keeps.get_bind
    intro d
    exact Keeps.pure (some (afterPass d.clock))

theorem observe (h : Upheld rig I) (phase : Phase τ) (now : τ) :
    Keeps I (observe rig phase now) := by
  cases phase with
  | starting => exact (h.start now).bind fun _ => Keeps.pure _
  | passing => exact h.pass now
  | waiting time => exact Keeps.pure _

theorem finish (h : Upheld rig I) (ending : Ending ε) {d : Driven τ σ} (hd : I d) (rest : List τ) :
    I (finish rig ending d rest).state := by
  unfold Clock.finish
  split
  · rename_i hbuzzing
    have hleft := h.quieten d hd hbuzzing
    split
    · rename_i hset
      rw [hset] at hleft
      exact hleft
    · rename_i hset
      rw [hset] at hleft
      exact hleft
  · exact hd

theorem close (h : Upheld rig I) (phase : Phase τ) (ending : Ending ε) {d : Driven τ σ} (hd : I d)
    (rest : List τ) : I (close rig phase ending d rest).state := by
  cases phase with
  | starting => exact hd
  | passing => exact h.finish ending hd rest
  | waiting time => exact h.finish ending hd rest

theorem runFrom (h : Upheld rig I) (phase : Phase τ) (readings : List τ) {d : Driven τ σ}
    (hd : I d) : I (runFrom rig phase readings d).state := by
  induction readings generalizing phase d with
  | nil => exact h.close phase .unread hd []
  | cons now rest ih =>
    have hleft := h.observe phase now d hd
    unfold Clock.runFrom
    split
    · rename_i hobserve
      rw [hobserve] at hleft
      exact h.close phase _ hleft rest
    · rename_i hobserve
      rw [hobserve] at hleft
      exact h.close phase _ hleft rest
    · rename_i hobserve
      rw [hobserve] at hleft
      exact ih _ hleft

theorem serve (h : Upheld rig I) (call : Call τ) {d : Driven τ σ} (hd : I d) :
    I (serve rig d call) := by
  cases call with
  | start now => exact h.start now d hd
  | step now => exact h.step now d hd
  | run readings => exact h.runFrom .starting readings hd

theorem after (h : Upheld rig I) (calls : List (Call τ)) {d : Driven τ σ} (hd : I d) :
    I (after rig d calls) := by
  induction calls generalizing d with
  | nil => exact hd
  | cons call rest ih => exact ih (h.serve call hd)

end Upheld

/-! ## What a rig keeps -/

/-- What does not depend on the frames and on the rates of a clock. -/
def Unrated (I : Driven τ σ → Prop) : Prop :=
  ∀ (d : Driven τ σ) (nextFrame nextReport : τ) (frames cycles : Nat), I d →
    I { d with clock := { d.clock with nextFrame, nextReport, frames, cycles } }

section

variable {rig : Rig ε σ} {I : Driven τ σ → Prop}

theorem keeps_checked (now : τ) : Keeps I (onClock (checked now) : Drive τ σ ε Unit) := by
  apply Keeps.onClock
  intro d hd
  unfold checked
  cases TimeLine.check now with
  | ok u => exact hd
  | error e => exact hd

theorem keeps_tickUntil
    (hnext : ∀ (d : Driven τ σ) (nextTick : τ),
      I d → I { d with clock := { d.clock with nextTick } })
    (htick : Keeps I (onRig rig.tick : Drive τ σ ε Unit)) (now : τ) (fuel : Nat) :
    Keeps I (tickUntil rig now fuel) := by
  induction fuel with
  | zero =>
    apply Keeps.get_bind
    intro d
    exact Keeps.ite (Keeps.throw _) (Keeps.pure _)
  | succ fuel ih =>
    apply Keeps.get_bind
    intro d
    apply Keeps.ite
    · exact htick.bind fun _ => (Keeps.modify fun d => hnext d _).bind fun _ => ih
    · exact Keeps.pure _

theorem keeps_reportRates (hrated : Unrated I)
    (hreport : ∀ frames cycles, Keeps I (onRig (rig.report frames cycles) : Drive τ σ ε Unit))
    (now : τ) : Keeps I (reportRates rig now) := by
  apply Keeps.get_bind
  intro d
  apply Keeps.ite
  · split
    · exact Keeps.throw _
    · exact (Keeps.modify fun d => hrated d _ _ _ _).bind fun _ => (hreport _ _).bind fun _ =>
        Keeps.modify fun d => hrated d _ _ _ _
  · exact Keeps.pure _

theorem keeps_showFrame (hrated : Unrated I)
    (hpoll : Keeps I (onRig rig.poll : Drive τ σ ε Bool))
    (hrefresh : Keeps I (onRig rig.refresh : Drive τ σ ε Unit)) (now : τ) :
    Keeps I (showFrame rig now) := by
  apply Keeps.get_bind
  intro d
  apply Keeps.ite
  · apply hpoll.bind
    intro quit
    apply Keeps.ite
    · exact Keeps.pure _
    · exact (keeps_checked now).bind fun _ => (Keeps.modify fun d => hrated d _ _ _ _).bind fun _ =>
        hrefresh.bind fun _ => (Keeps.modify fun d => hrated d _ _ _ _).bind fun _ => Keeps.pure _
  · exact Keeps.pure _

end

/-- What the requests to a rig keep of its state, the whole work of a clock keeps. -/
theorem upheld_of_keeps {rig : Rig ε σ} {I : σ → Prop} (h : rig.Keeps I) :
    Upheld rig (fun d : Driven τ σ => I d.rig) := by
  have honRig : ∀ {α : Type} {act : EStateM ε σ α}, Keeps I act →
      Keeps (fun d : Driven τ σ => I d.rig) (onRig act) :=
    fun hact => Keeps.onRig fun d hd => hact d.rig hd
  have honClock : ∀ {α : Type} (act : EStateM ArithmeticError (Clock τ) α),
      Keeps (fun d : Driven τ σ => I d.rig) (onClock act : Drive τ σ ε α) :=
    fun _ => Keeps.onClock fun _ hd => hd
  have hset : ∀ on, Keeps (fun d : Driven τ σ => I d.rig) (setBuzzer rig on) :=
    fun on => (honRig (h.buzz on)).bind fun _ => honClock _
  have hrated : Unrated (fun d : Driven τ σ => I d.rig) := fun _ _ _ _ _ hd => hd
  constructor
  case start => exact fun now => honClock _
  case reportRates => exact keeps_reportRates hrated fun _ _ => honRig (h.report _ _)
  case showFrame => exact keeps_showFrame hrated (honRig h.poll) (honRig h.refresh)
  case catchUp =>
    intro now
    exact Keeps.get_bind fun d => keeps_tickUntil (fun _ _ hd => hd) (honRig h.tick) now _
  case runDue =>
    intro now
    apply Keeps.get_bind
    intro d
    apply Keeps.ite
    · exact (honRig (h.cycle)).bind fun _ => (honClock _).bind fun _ => Keeps.pure _
    · exact Keeps.pure _
  case updateBuzzer =>
    apply (honRig h.sounding).bind
    intro on
    exact Keeps.get_bind fun d => Keeps.ite (hset on) (Keeps.pure _)
  case quieten => exact fun d hd _ => hset false d hd

end Clock

end Chip8
