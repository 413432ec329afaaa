import Chip8.Proofs.Passes
import Chip8.Proofs.Ticks

/-!
# What a run reports

Every instruction and every frame of a run is either in the figures that were reported or in the
counts of the clock, and in one of them only.  Every frame is shown right after the inputs were
polled for it.
-/

namespace Chip8

/-! ## Journals -/

def Deed.toldFrames : Deed → Nat
  | .report frames _ true => frames
  | _ => 0

def Deed.toldCycles : Deed → Nat
  | .report _ cycles true => cycles
  | _ => 0

def told (figure : Deed → Nat) : List Deed → Nat
  | [] => 0
  | deed :: rest => figure deed + told figure rest

theorem told_append (figure : Deed → Nat) (journal more : List Deed) :
    told figure (journal ++ more) = told figure journal + told figure more := by
  induction journal with
  | nil => exact (Nat.zero_add _).symm
  | cons deed rest ih => rw [List.cons_append, told, told, ih, Nat.add_assoc]

theorem told_eq_zero {figure : Deed → Nat} {journal : List Deed}
    (h : ∀ deed ∈ journal, figure deed = 0) : told figure journal = 0 := by
  induction journal with
  | nil => rfl
  | cons deed rest ih =>
    rw [told, h deed List.mem_cons_self, ih fun d hd => h d (List.mem_cons_of_mem _ hd)]

/-- Whether a deed is neither an answer of the inputs nor a frame. -/
def Deed.Aside : Deed → Prop
  | .poll (some _) => False
  | .refresh _ => False
  | _ => True

def Deed.Uncounted : Deed → Prop
  | .cycle true => False
  | .poll (some _) => False
  | .refresh _ => False
  | .report _ _ true => False
  | _ => True

theorem Deed.Audible.uncounted {deed : Deed} (h : deed.Audible) : deed.Uncounted := by
  cases deed <;> first | exact h.elim | trivial

theorem Deed.Uncounted.aside {deed : Deed} (h : deed.Uncounted) : deed.Aside := by
  unfold Deed.Aside
  split
  · exact h.elim
  · exact h.elim
  · trivial

theorem Deed.Uncounted.toldFrames {deed : Deed} (h : deed.Uncounted) : deed.toldFrames = 0 := by
  unfold Deed.toldFrames
  split
  · exact h.elim
  · rfl

theorem Deed.Uncounted.toldCycles {deed : Deed} (h : deed.Uncounted) : deed.toldCycles = 0 := by
  unfold Deed.toldCycles
  split
  · exact h.elim
  · rfl

/-- A poll that does not ask to quit is followed by a frame at once, and there are no other frames.
After a poll that asks to quit the buzzer alone is turned on or off. -/
structure FramesFollowPolls (journal : List Deed) : Prop where
  shown : ∀ i : Nat, journal[i]? = some (.poll (some false)) →
    ∃ done, journal[i + 1]? = some (.refresh done)
  polled : ∀ (i : Nat) done, journal[i]? = some (.refresh done) →
    ∃ j, i = j + 1 ∧ journal[j]? = some (.poll (some false))
  last : ∀ (i j : Nat) deed, i < j → journal[i]? = some (.poll (some true)) →
    journal[j]? = some deed → ∃ on done, deed = Deed.buzz on done

namespace FramesFollowPolls

variable {journal more : List Deed}

theorem of_aside (h : ∀ deed ∈ journal, deed.Aside) : FramesFollowPolls journal := by
  have haside : ∀ {i : Nat} {deed : Deed}, journal[i]? = some deed → deed.Aside :=
    fun hi => h _ (List.mem_of_getElem? hi)
  exact
    { shown := fun i hi => (haside hi).elim
      polled := fun i done hi => (haside hi).elim
      last := fun i j deed _ hi => (haside hi).elim }

theorem singleton {deed : Deed} (h : deed.Aside) : FramesFollowPolls [deed] := by
  apply of_aside
  intro other hother
  rwa [List.mem_singleton.1 hother]

theorem frame (done : Bool) : FramesFollowPolls [.poll (some false), .refresh done] where
  shown i hi := by
    rcases i with _ | _ | i
    · exact ⟨done, rfl⟩
    · simp at hi
    · simp at hi
  polled i other hi := by
    rcases i with _ | _ | i
    · simp at hi
    · exact ⟨0, rfl, rfl⟩
    · simp at hi
  last i j deed hij hi hj := by
    rcases i with _ | _ | i <;> simp at hi

theorem quit : FramesFollowPolls [.poll (some true)] where
  shown i hi := by cases i <;> simp at hi
  polled i done hi := by cases i <;> simp at hi
  last i j deed hij hi hj := by
    have hlength := (List.getElem?_eq_some_iff.1 hj).1
    rw [List.length_singleton] at hlength
    omega

/-- After a poll that asks to quit nothing but the buzzer may be added. -/
theorem append (h : FramesFollowPolls journal) (hmore : FramesFollowPolls more)
    (hquit : .poll (some true) ∈ journal → ∀ deed ∈ more, ∃ on done, deed = Deed.buzz on done) :
    FramesFollowPolls (journal ++ more) where
  shown i hi := by
    rcases Nat.lt_or_ge i journal.length with hlt | hge
    · rw [List.getElem?_append_left hlt] at hi
      obtain ⟨done, hdone⟩ := h.shown i hi
      have hlt' := (List.getElem?_eq_some_iff.1 hdone).1
      exact ⟨done, by rwa [List.getElem?_append_left hlt']⟩
    · rw [List.getElem?_append_right hge] at hi
      obtain ⟨done, hdone⟩ := hmore.shown _ hi
      refine ⟨done, ?_⟩
      rwa [List.getElem?_append_right (by omega), Nat.sub_add_comm hge]
  polled i done hi := by
    rcases Nat.lt_or_ge i journal.length with hlt | hge
    · rw [List.getElem?_append_left hlt] at hi
      obtain ⟨j, rfl, hj⟩ := h.polled i done hi
      exact ⟨j, rfl, by rwa [List.getElem?_append_left (by omega)]⟩
    · rw [List.getElem?_append_right hge] at hi
      obtain ⟨j, hij, hj⟩ := hmore.polled _ done hi
      refine ⟨journal.length + j, by omega, ?_⟩
      rwa [List.getElem?_append_right (by omega), Nat.add_sub_cancel_left]
  last i j deed hij hi hj := by
    rcases Nat.lt_or_ge j journal.length with hlt | hge
    · rw [List.getElem?_append_left hlt] at hj
      rw [List.getElem?_append_left (by omega)] at hi
      exact h.last i j deed hij hi hj
    · rw [List.getElem?_append_right hge] at hj
      rcases Nat.lt_or_ge i journal.length with hi' | hi'
      · rw [List.getElem?_append_left hi'] at hi
        exact hquit (List.mem_of_getElem? hi) deed (List.mem_of_getElem? hj)
      · rw [List.getElem?_append_right hi'] at hi
        exact hmore.last _ _ deed (by omega) hi hj

end FramesFollowPolls

namespace Clock

variable {τ σ ε : Type} [TimeLine τ]

open TimeLine

/-- What was reported and what the clock has counted since are all instructions and frames that
went through. -/
structure Accounted (c : Clock τ) (journal : List Deed) : Prop where
  cycles : told Deed.toldCycles journal + c.cycles = journal.count (.cycle true)
  frames : told Deed.toldFrames journal + c.frames = journal.count (.refresh true)

omit [TimeLine τ] in
theorem Accounted.append {c c' : Clock τ} {journal more : List Deed} (h : Accounted c journal)
    (hcycles : told Deed.toldCycles more + c'.cycles = c.cycles + more.count (.cycle true))
    (hframes : told Deed.toldFrames more + c'.frames = c.frames + more.count (.refresh true)) :
    Accounted c' (journal ++ more) := by
  obtain ⟨hcycles', hframes'⟩ := h
  constructor
  · rw [told_append, List.count_append]
    omega
  · rw [told_append, List.count_append]
    omega

def Reckoned (t : τ) : Prop := check t = .ok ()

/-- Whether the times of the clock's instructions can be reckoned with, whatever they follow. -/
def Plannable (c : Clock τ) : Prop := ∀ span, c.interval = some span → ∀ t, Reckoned (add t span)

def counts (c : Clock τ) : Option τ × τ × Nat × Nat :=
  (c.interval, c.nextCycle, c.frames, c.cycles)

/-- A run that was not asked to quit, and may go on. -/
structure Going (d : Driven τ (Journaled σ)) : Prop where
  plannable : Plannable d.clock
  nextCycle : Reckoned d.clock.nextCycle
  accounted : Accounted d.clock d.rig.journal
  paced : FramesFollowPolls d.rig.journal
  asked : .poll (some true) ∉ d.rig.journal

/-- A run that may have been asked to quit. -/
structure Gone (d : Driven τ (Journaled σ)) : Prop where
  accounted : Accounted d.clock d.rig.journal
  paced : FramesFollowPolls d.rig.journal

variable {d : Driven τ (Journaled σ)}

theorem Going.gone (h : Going d) : Gone d := ⟨h.accounted, h.paced⟩

theorem Going.append (h : Going d) {c : Clock τ} {more : List Deed} (s : σ)
    (hinterval : c.interval = d.clock.interval) (hnext : Reckoned c.nextCycle)
    (hcycles : told Deed.toldCycles more + c.cycles = d.clock.cycles + more.count (.cycle true))
    (hframes : told Deed.toldFrames more + c.frames = d.clock.frames + more.count (.refresh true))
    (hmore : FramesFollowPolls more) (hasked : .poll (some true) ∉ more) :
    Going ⟨c, ⟨s, d.rig.journal ++ more⟩⟩ where
  plannable span hspan := h.plannable span (hinterval.symm.trans hspan)
  nextCycle := hnext
  accounted := h.accounted.append hcycles hframes
  paced := h.paced.append hmore fun hquit => absurd hquit h.asked
  asked hquit := (List.mem_append.1 hquit).elim h.asked hasked

/-- Deeds that count for nothing may be added at any time. -/
theorem Going.uncounted (h : Going d) {c : Clock τ} {more : List Deed} (s : σ)
    (hclock : c.counts = d.clock.counts) (hmore : ∀ deed ∈ more, deed.Uncounted) :
    Going ⟨c, ⟨s, d.rig.journal ++ more⟩⟩ := by
  have hnot : ∀ deed : Deed, ¬deed.Uncounted → deed ∉ more :=
    fun deed hdeed hmem => hdeed (hmore deed hmem)
  have hcycles₀ : told Deed.toldCycles more = 0 :=
    told_eq_zero fun deed hdeed => (hmore deed hdeed).toldCycles
  have hframes₀ : told Deed.toldFrames more = 0 :=
    told_eq_zero fun deed hdeed => (hmore deed hdeed).toldFrames
  simp only [counts, Prod.mk.injEq] at hclock
  obtain ⟨hinterval, hnext, hframes, hcycles⟩ := hclock
  refine h.append s hinterval (hnext ▸ h.nextCycle) ?_ ?_ ?_ (hnot _ id)
  · rw [hcycles₀, List.count_eq_zero.2 (hnot _ id), hcycles, Nat.zero_add, Nat.add_zero]
  · rw [hframes₀, List.count_eq_zero.2 (hnot _ id), hframes, Nat.zero_add, Nat.add_zero]
  · exact .of_aside fun deed hdeed => (hmore deed hdeed).aside

/-! ## Steps -/

theorem Going.caughtUp (h : Going d) (n : Nat) (s : σ) : Going (afterTicks d n s) := by
  unfold afterTicks
  refine h.uncounted s rfl fun deed hdeed => ?_
  rw [List.eq_of_mem_replicate hdeed]
  trivial

theorem advance_reckoned {now : τ} (hnow : Reckoned now) {c : Clock τ} (hplan : Plannable c)
    (hnext : Reckoned c.nextCycle) :
    ∃ nextCycle, Reckoned nextCycle ∧
      left (advance now c) = { c with nextCycle, cycles := c.cycles + 1 } := by
  obtain ⟨interval, buzzing, next, nextTick, nextFrame, nextReport, frames, cycles⟩ := c
  rw [advance_eq]
  cases interval with
  | none => exact ⟨next, hnext, rfl⟩
  | some span =>
    have hsum : Reckoned (add next span) := hplan span rfl next
    refine ⟨resumed now (add next span), ?_, ?_⟩
    · unfold resumed
      split
      · exact hnow
      · exact hsum
    · unfold Reckoned at hnext hnow
      simp only [hnext, hnow, left]

theorem Going.cycled {now : τ} (hnow : Reckoned now) (h : Going d) {e : Driven τ (Journaled σ)}
    (hcycled : Cycled now d e) : Going e := by
  cases hcycled with
  | idle hdue => exact h
  | failed hdue s => exact h.uncounted s rfl (by simp [Deed.Uncounted])
  | done hdue s =>
    obtain ⟨nextCycle, hnext, hleft⟩ := advance_reckoned hnow h.plannable h.nextCycle
    rw [hleft]
    exact h.append s rfl hnext (Nat.zero_add _) (Nat.zero_add _) (.singleton trivial) (by simp)

theorem Going.step (rig : Rig ε σ) {now : τ} (hnow : Reckoned now) (h : Going d) :
    Going (left (step rig.journaled now d)) := by
  rcases step_cases rig now d with ⟨n, s, hstep⟩ | ⟨n, s, e, hstep⟩ | ⟨n, s, -, -, hstep⟩
  · rw [hstep]
    exact h.caughtUp n s
  · rw [hstep]
    exact (h.caughtUp n s).uncounted s rfl (by simp [Deed.Uncounted])
  · rw [hstep]
    apply left_proceed
    · exact fun e buzzing s deed haudible he =>
        he.uncounted s rfl (List.forall_mem_singleton.2 haudible.uncounted)
    · exact fun e he => (h.caughtUp n s).cycled hnow he

/-! ## Reports -/

inductive Reported (d : Driven τ (Journaled σ)) :
    EStateM.Result (Stop ε) (Driven τ (Journaled σ)) Unit → Prop
  | early : Reported d (.ok () d)
  | refused (e : ArithmeticError) : Reported d (.error (.badTime e) d)
  | failed (nextReport : τ) (e : ε) (s : σ) :
    Reported d
      (.error (.failed e)
        ⟨{ d.clock with nextReport },
          ⟨s, d.rig.journal ++ [.report d.clock.frames d.clock.cycles false]⟩⟩)
  | done (nextReport : τ) (s : σ) :
    Reported d
      (.ok ()
        ⟨{ d.clock with nextReport, frames := 0, cycles := 0 },
          ⟨s, d.rig.journal ++ [.report d.clock.frames d.clock.cycles true]⟩⟩)

theorem reported_reportRates (rig : Rig ε σ) (now : τ) (d : Driven τ (Journaled σ)) :
    Reported d (reportRates rig.journaled now d) := by
  unfold reportRates
  rw [bind_apply, get_apply]
  dsimp only
  split
  · cases wholeSecond now with
    | error e => exact .refused e
    | ok whole =>
      have hentered : rig.journaled.report d.clock.frames d.clock.cycles =
          entered (fun a => .report d.clock.frames d.clock.cycles a.isSome)
            (rig.report d.clock.frames d.clock.cycles) := rfl
      simp only [bind_apply, onClock, modify_apply, hentered, onRig_entered]
      cases rig.report d.clock.frames d.clock.cycles d.rig.state with
      | ok u s => exact .done _ s
      | error e s => exact .failed _ e s
  · exact .early

/-! ## Frames -/

/-- What may come of a frame at a time that can be reckoned with.  The poll and the refresh are
taken together, since between them the journal has a poll that no frame follows yet. -/
inductive FrameDone (d : Driven τ (Journaled σ)) :
    EStateM.Result (Stop ε) (Driven τ (Journaled σ)) Bool → Prop
  | early : FrameDone d (.ok false d)
  | unpolled (e : ε) (s : σ) :
    FrameDone d (.error (.failed e) ⟨d.clock, ⟨s, d.rig.journal ++ [.poll none]⟩⟩)
  | quit (s : σ) : FrameDone d (.ok true ⟨d.clock, ⟨s, d.rig.journal ++ [.poll (some true)]⟩⟩)
  | unshown (nextFrame : τ) (e : ε) (s : σ) :
    FrameDone d
      (.error (.failed e)
        ⟨{ d.clock with nextFrame },
          ⟨s, d.rig.journal ++ [.poll (some false), .refresh false]⟩⟩)
  | shown (nextFrame : τ) (s : σ) :
    FrameDone d
      (.ok false
        ⟨{ d.clock with nextFrame, frames := d.clock.frames + 1 },
          ⟨s, d.rig.journal ++ [.poll (some false), .refresh true]⟩⟩)

def present (rig : Rig ε σ) (now : τ) : Drive τ σ ε Bool := do
  onClock (checked now)
  onClock (modify ({ · with nextFrame := add now frameSpan }))
  onRig rig.refresh
  onClock (modify fun c => { c with frames := c.frames + 1 })
  return false

theorem present_eq (rig : Rig ε σ) {now : τ} (hnow : check now = .ok ())
    (d : Driven τ (Journaled σ)) :
    present rig.journaled now d =
      match rig.refresh d.rig.state with
      | .ok _ s =>
        .ok false
          ⟨{ d.clock with nextFrame := add now frameSpan, frames := d.clock.frames + 1 },
            ⟨s, d.rig.journal ++ [.refresh true]⟩⟩
      | .error e s =>
        .error (.failed e)
          ⟨{ d.clock with nextFrame := add now frameSpan },
            ⟨s, d.rig.journal ++ [.refresh false]⟩⟩ := by
  have hchecked : (onClock (checked now) : Drive τ (Journaled σ) ε Unit) d = .ok () d := by
    unfold onClock checked
    rw [hnow]
    rfl
  have hrefresh : rig.journaled.refresh =
      entered (fun a => .refresh a.isSome) rig.refresh := rfl
  unfold present
  rw [bind_apply, hchecked, hrefresh]
  simp only [bind_apply, onClock, modify_apply, onRig_entered]
  cases rig.refresh d.rig.state <;> rfl

theorem frameDone_showFrame (rig : Rig ε σ) {now : τ} (hnow : check now = .ok ())
    (d : Driven τ (Journaled σ)) : FrameDone d (showFrame rig.journaled now d) := by
  have hpoll : rig.journaled.poll = entered .poll rig.poll := rfl
  have hshow : showFrame rig.journaled now d =
      (if le d.clock.nextFrame now then (do
        if ← onRig rig.journaled.poll then return true
        present rig.journaled now)
      else return false : Drive τ (Journaled σ) ε Bool) d := rfl
  rw [hshow]
  split
  · rw [bind_apply, hpoll, onRig_entered]
    cases rig.poll d.rig.state with
    | error e s => exact .unpolled e s
    | ok quit s =>
      cases quit with
      | true => exact .quit s
      | false =>
        change FrameDone d (present rig.journaled now
          ⟨d.clock, ⟨s, d.rig.journal ++ [.poll (some false)]⟩⟩)
        simp only [present_eq rig hnow, List.append_assoc, List.singleton_append]
        cases rig.refresh s with
        | ok u s => exact .shown _ s
        | error e s => exact .unshown _ e s
  · exact .early

/-! ## Passes -/

theorem Going.reportRates (h : Going d) (rig : Rig ε σ) (now : τ) :
    Going (left (reportRates rig.journaled now d)) := by
  have hreported := reported_reportRates rig now d
  generalize Clock.reportRates rig.journaled now d = r at hreported
  cases hreported with
  | early => exact h
  | refused e => exact h
  | failed nextReport e s => exact h.uncounted s rfl (by simp [Deed.Uncounted])
  | done nextReport s =>
    exact h.append s rfl h.nextCycle rfl rfl (.singleton trivial) (by simp)

def Leaves {α : Type} (goesOn : α → Bool) :
    EStateM.Result (Stop ε) (Driven τ (Journaled σ)) α → Prop
  | .ok a e => if goesOn a then Going e else Gone e
  | .error _ e => Gone e

theorem leaves_of_left {α : Type} {r : EStateM.Result (Stop ε) (Driven τ (Journaled σ)) α}
    (h : Going (left r)) : Leaves (fun _ => true) r := by
  cases r with
  | ok a e => exact h
  | error stop e => exact h.gone

theorem Leaves.bind {α β : Type} {goesOn : α → Bool} {goesOn' : β → Bool}
    {act : Drive τ (Journaled σ) ε α} {next : α → Drive τ (Journaled σ) ε β}
    (hact : Leaves goesOn (act d))
    (hgoing : ∀ a e, goesOn a = true → Going e → Leaves goesOn' (next a e))
    (hgone : ∀ a e, goesOn a = false → Gone e → Leaves goesOn' (next a e)) :
    Leaves goesOn' ((act >>= next) d) := by
  rw [bind_apply]
  cases hrun : act d with
  | error stop e =>
    rw [hrun] at hact
    exact hact
  | ok a e =>
    rw [hrun] at hact
    unfold Leaves at hact
    dsimp only at hact
    split at hact
    · rename_i ha
      exact hgoing a e ha hact
    · rename_i ha
      exact hgone a e (Bool.eq_false_iff.2 ha) hact

theorem Going.showFrame (h : Going d) (rig : Rig ε σ) {now : τ} (hnow : Reckoned now) :
    Leaves (! ·) (showFrame rig.journaled now d) := by
  have hdone := frameDone_showFrame rig hnow d
  generalize Clock.showFrame rig.journaled now d = r at hdone
  cases hdone with
  | early => exact h
  | unpolled e s => exact (h.uncounted s rfl (by simp [Deed.Uncounted])).gone
  | quit s =>
    -- The run is over with this deed, so that it need not be a run that may go on.
    have hpaced : FramesFollowPolls (d.rig.journal ++ [.poll (some true)]) :=
      h.paced.append .quit fun hquit => absurd hquit h.asked
    exact ⟨h.accounted.append (Nat.zero_add _) (Nat.zero_add _), hpaced⟩
  | unshown nextFrame e s =>
    have hgoing : Going ⟨{ d.clock with nextFrame },
        ⟨s, d.rig.journal ++ [.poll (some false), .refresh false]⟩⟩ :=
      h.append s rfl h.nextCycle (Nat.zero_add _) (Nat.zero_add _) (.frame false) (by simp)
    exact hgoing.gone
  | shown nextFrame s =>
    exact h.append s rfl h.nextCycle (Nat.zero_add _) (Nat.zero_add _) (.frame true) (by simp)

/-- The invariant fails inside a report and inside a frame, and holds between the parts of a
pass. -/
theorem Going.pass (h : Going d) (rig : Rig ε σ) {now : τ} (hnow : Reckoned now) :
    Leaves Option.isSome (pass rig.journaled now d) := by
  apply (leaves_of_left (h.reportRates rig now)).bind
  · intro _ d₁ _ h₁
    apply (h₁.showFrame rig hnow).bind
    · intro quit d₂ hquit h₂
      rw [Bool.not_eq_true'] at hquit
      rw [hquit, if_neg Bool.false_ne_true]
      apply (leaves_of_left (h₂.step rig hnow)).bind
      · exact fun _ d₃ _ h₃ => h₃
      · exact nofun
    · intro quit d₂ hquit h₂
      rw [Bool.not_eq_false'] at hquit
      rw [hquit, if_pos rfl]
      exact h₂
  · exact nofun

theorem Going.observe (h : Going d) (rig : Rig ε σ) {phase : Phase τ} (hphase : phase ≠ .starting)
    {now : τ} (hnow : Reckoned now) :
    Leaves Option.isSome (observe rig.journaled phase now d) := by
  cases phase with
  | starting => exact absurd rfl hphase
  | passing => exact h.pass rig hnow
  | waiting time => exact h

/-! ## Runs -/

omit [TimeLine τ] in
theorem Gone.buzz (h : Gone d) (buzzing : Bool) (s : σ) (on done : Bool) :
    Gone ⟨{ d.clock with buzzing }, ⟨s, d.rig.journal ++ [.buzz on done]⟩⟩ where
  accounted := h.accounted.append (Nat.zero_add _) (Nat.zero_add _)
  paced := by
    have hbuzz : FramesFollowPolls [.buzz on done] := .singleton trivial
    refine h.paced.append hbuzz fun _ deed hdeed => ?_
    exact ⟨on, done, List.mem_singleton.1 hdeed⟩

omit [TimeLine τ] in
theorem Gone.close (h : Gone d) (rig : Rig ε σ) (phase : Phase τ) (ending : Ending ε)
    (rest : List τ) : Gone (close rig.journaled phase ending d rest).state := by
  have hfinish : Gone (finish rig.journaled ending d rest).state := by
    unfold finish
    split
    · have hturned := turned_setBuzzer rig false d
      generalize setBuzzer rig.journaled false d = r at hturned
      cases hturned with
      | refused e s => exact h.buzz d.clock.buzzing s false false
      | turned s hbuzz => exact h.buzz false s false true
    · exact h
  cases phase with
  | starting => exact h
  | passing => exact hfinish
  | waiting time => exact hfinish

theorem Going.runFrom (h : Going d) (rig : Rig ε σ) {phase : Phase τ}
    (hphase : phase ≠ .starting) {readings : List τ} (hreadings : ∀ t ∈ readings, Reckoned t) :
    Gone (runFrom rig.journaled phase readings d).state := by
  induction readings generalizing phase d with
  | nil => exact h.gone.close rig phase .unread []
  | cons now rest ih =>
    have hleaves := h.observe rig hphase (hreadings now List.mem_cons_self)
    unfold Clock.runFrom
    cases hobserve : Clock.observe rig.journaled phase now d with
    | error e d₁ =>
      rw [hobserve] at hleaves
      exact Gone.close hleaves rig phase _ rest
    | ok next d₁ =>
      rw [hobserve] at hleaves
      cases next with
      | none => exact Gone.close hleaves rig phase .quit rest
      | some phase' =>
        exact ih hleaves (observe_ne_starting hobserve)
          fun t ht => hreadings t (List.mem_cons_of_mem _ ht)

theorem Going.underWay (h : Going d) (rig : Rig ε σ) {phase phase' : Phase τ}
    (hphase : phase ≠ .starting) {readings : List τ} (hreadings : ∀ t ∈ readings, Reckoned t)
    {e : Driven τ (Journaled σ)}
    (hrun : underWay rig.journaled phase readings d = some (phase', e)) : Going e := by
  induction readings generalizing phase d with
  | nil =>
    cases hrun
    exact h
  | cons now rest ih =>
    have hleaves := h.observe rig hphase (hreadings now List.mem_cons_self)
    unfold Clock.underWay at hrun
    split at hrun
    · rename_i hobserve
      rw [hobserve] at hleaves
      exact ih hleaves (observe_ne_starting hobserve)
        (fun t ht => hreadings t (List.mem_cons_of_mem _ ht)) hrun
    · cases hrun

/-! ## Whole runs -/

theorem underWay_journaled (rig : Rig ε σ) (phase : Phase τ) (readings : List τ)
    (d : Driven τ (Journaled σ)) :
    (underWay rig.journaled phase readings d).map (fun p => (p.1, p.2.erased)) =
      underWay rig phase readings d.erased := by
  induction readings generalizing phase d with
  | nil => rfl
  | cons now rest ih =>
    unfold Clock.underWay
    rw [← observe_journaled rig phase now d]
    cases Clock.observe rig.journaled phase now d with
    | error e d => rfl
    | ok next d =>
      cases next with
      | none => rfl
      | some phase => exact ih phase d

/-- The first reading begins a run with nothing counted and nothing written. -/
theorem going_first (rig : Rig ε σ) {d : Driven τ σ} (hplan : Plannable d.clock) {first : τ}
    (hfirst : Reckoned first) :
    ∃ e, observe rig.journaled .starting first d.unwritten = .ok (some .passing) e ∧ Going e := by
  have hstarting : Clock.observe rig.journaled .starting first d.unwritten =
      (onClock (start first) >>= fun _ => Pure.pure (some Phase.passing)) d.unwritten := rfl
  rw [hstarting, bind_apply]
  unfold onClock
  rw [start_eq, show check first = .ok () from hfirst]
  refine ⟨_, rfl, ?_⟩
  exact
    { plannable := hplan
      nextCycle := hfirst
      accounted := ⟨rfl, rfl⟩
      paced := .of_aside fun deed hdeed => absurd hdeed List.not_mem_nil
      asked := List.not_mem_nil }

/-- From its first reading on, as long as it goes on and however it ends, a run has reported or
still counts every instruction and every frame that went through, each of them once.  It shows a
frame right after each poll that does not ask to quit, and at no other time, and does nothing but
turn the buzzer off once a poll asks to quit.  The readings may jump or go backwards. -/
theorem runs_account_for_everything (rig : Rig ε σ) (d : Driven τ σ) (hplan : Plannable d.clock)
    {first : τ} {rest : List τ} (hreadings : ∀ t ∈ first :: rest, Reckoned t) :
    (∀ phase e, underWay rig .starting (first :: rest) d = some (phase, e) →
      ∃ journal,
        underWay rig.journaled .starting (first :: rest) d.unwritten =
          some (phase, ⟨e.clock, ⟨e.rig, journal⟩⟩) ∧
        Accounted e.clock journal ∧ FramesFollowPolls journal ∧ .poll (some true) ∉ journal) ∧
    Accounted (run rig (first :: rest) d).state.clock (deeds rig d [.run (first :: rest)]) ∧
    FramesFollowPolls (deeds rig d [.run (first :: rest)]) := by
  obtain ⟨e₀, hfirst, hgoing⟩ := going_first rig hplan (hreadings first List.mem_cons_self)
  have hrest : ∀ t ∈ rest, Reckoned t := fun t ht => hreadings t (List.mem_cons_of_mem _ ht)
  have hpassing : Phase.passing ≠ (.starting : Phase τ) := nofun
  constructor
  · intro phase e hrun
    have hplain := underWay_journaled rig .starting (first :: rest) d.unwritten
    have hcut : underWay rig.journaled .starting (first :: rest) d.unwritten =
        underWay rig.journaled .passing rest e₀ := by
      rw [Clock.underWay, hfirst]
    rw [hcut] at hplain ⊢
    obtain ⟨⟨phase', ⟨clock, ⟨s, journal⟩⟩⟩, hjournaled, herased⟩ :=
      Option.map_eq_some_iff.1 (hplain.trans hrun)
    cases herased
    have h := hgoing.underWay rig hpassing hrest hjournaled
    exact ⟨journal, hjournaled, h.accounted, h.paced, h.asked⟩
  · have hcut : run rig.journaled (first :: rest) d.unwritten =
        runFrom rig.journaled .passing rest e₀ := by
      rw [run, Clock.runFrom, hfirst]
    have hplain := runFrom_journaled rig .starting (first :: rest) d.unwritten
    have hclock : (run rig.journaled (first :: rest) d.unwritten).state.clock =
        (run rig (first :: rest) d).state.clock :=
      congrArg (fun f => f.state.clock) hplain
    have h : Gone (run rig.journaled (first :: rest) d.unwritten).state := by
      rw [hcut]
      exact hgoing.runFrom rig hpassing hrest
    rw [← hclock]
    exact ⟨h.accounted, h.paced⟩

/-- Whatever a host's clock shows can be reckoned with, numbers that are none included. -/
theorem reckoned_real (x : Float) : Reckoned (Number.real x) := rfl

theorem plannable_of_real {c : Clock Number} {interval : Option Float}
    (h : c.interval = interval.map .real) : Plannable c := by
  intro span hspan t
  rw [h] at hspan
  obtain ⟨x, -, rfl⟩ := Option.map_eq_some_iff.1 hspan
  cases t <;> rfl

def ambling : Driven Number (Console Grid) :=
  ⟨new (some (.real 0.1)) (.real 0.0), Console.jumping⟩

/-- A second after its start a run reports one frame and one instruction. -/
theorem account_of_ambling :
    .report 1 1 true ∈
        deeds Console.rig ambling [.run [.real 0.0, .real 0.0, .real 1.0, .real 1.0]] ∧
      Accounted (run Console.rig [.real 0.0, .real 0.0, .real 1.0, .real 1.0] ambling).state.clock
        (deeds Console.rig ambling [.run [.real 0.0, .real 0.0, .real 1.0, .real 1.0]]) := by
  have hreadings : ∀ t ∈ [Number.real 0.0, .real 0.0, .real 1.0, .real 1.0], Reckoned t := by
    intro t ht
    simp only [List.mem_cons, List.not_mem_nil, or_false] at ht
    rcases ht with rfl | rfl | rfl | rfl <;> exact reckoned_real _
  have hinterval : ambling.clock.interval = (some 0.1).map Number.real := rfl
  obtain ⟨-, haccounted, -⟩ :=
    runs_account_for_everything Console.rig ambling (plannable_of_real hinterval) hreadings
  exact ⟨by decide +kernel, haccounted⟩

/-- A run that never gets a reading keeps the counts from before it. -/
theorem unstarted_run_unaccounted :
    (run Console.rig [] (after Console.rig racing [.step (.real 0.0)])).state.clock.cycles = 1 ∧
      ¬Accounted (run Console.rig [] (after Console.rig racing [.step (.real 0.0)])).state.clock
        (deeds Console.rig (after Console.rig racing [.step (.real 0.0)]) [.run []]) := by
  have hcycles : (run Console.rig []
      (after Console.rig racing [.step (.real 0.0)])).state.clock.cycles = 1 := by decide +kernel
  have hnothing : deeds Console.rig (after Console.rig racing [.step (.real 0.0)]) [.run []] = [] :=
    rfl
  refine ⟨hcycles, fun h => ?_⟩
  have htold := h.cycles
  rw [hcycles, hnothing] at htold
  exact absurd htold (by decide)

end Clock

end Chip8
