import Chip8.Proofs.Console
import Chip8.Proofs.Moment
import Chip8.Proofs.Passes

/-!
# The buzzer

A clock asks for the buzzer on, off, on, and so forth.  It follows the sound timer from step to
step, and is off after every run, whatever the run ends with.
-/

namespace Chip8

def buzzes (journal : List Deed) : List Bool :=
  journal.filterMap fun
    | .buzz on _ => some on
    | _ => none

/-- What was last asked of the buzzer, which is off at first. -/
def lastBuzz (journal : List Deed) : Bool := (buzzes journal).getLastD false

def Heeded (journal : List Deed) : Prop := ∀ on, Deed.buzz on false ∉ journal

instance (journal : List Deed) : Decidable (Heeded journal) :=
  inferInstanceAs (Decidable (∀ on, Deed.buzz on false ∉ journal))

def Alternating (asked : List Bool) : Prop :=
  ∀ k, ∀ h : k < asked.length, asked[k] = decide (k % 2 = 0)

instance (asked : List Bool) : Decidable (Alternating asked) :=
  inferInstanceAs (Decidable (∀ k, ∀ h : k < asked.length, asked[k] = decide (k % 2 = 0)))

theorem buzzes_append (journal more : List Deed) :
    buzzes (journal ++ more) = buzzes journal ++ buzzes more := List.filterMap_append

theorem Heeded.of_append {journal more : List Deed} (h : Heeded (journal ++ more)) :
    Heeded journal := fun on hon => h on (List.mem_append_left more hon)

theorem Alternating.getLastD_eq {asked : List Bool} (h : Alternating asked) :
    asked.getLastD false = decide (asked.length % 2 = 1) := by
  rcases asked.eq_nil_or_concat with rfl | ⟨front, last, rfl⟩
  · rfl
  · have hlast := h front.length (by simp)
    simp only [List.concat_eq_append, List.getElem_concat_length] at hlast
    rw [List.concat_eq_append, List.getLastD_concat, hlast, List.length_append,
      List.length_singleton]
    apply decide_eq_decide.2
    omega

theorem Alternating.append {asked : List Bool} {on : Bool} (h : Alternating asked)
    (hon : on ≠ asked.getLastD false) : Alternating (asked ++ [on]) := by
  rw [h.getLastD_eq] at hon
  intro k hk
  rw [List.length_append, List.length_singleton] at hk
  rcases Nat.lt_or_ge k asked.length with hlt | hge
  · rw [List.getElem_append_left hlt]
    exact h k hlt
  · obtain rfl : k = asked.length := by omega
    rw [List.getElem_concat_length rfl, Bool.eq_not_of_ne hon, ← decide_not]
    apply decide_eq_decide.2
    omega

/-- The requests to the buzzer alternate, and the clock knows the last of them, unless one of them
failed. -/
def Followed (journal : List Deed) (buzzing : Bool) : Prop :=
  Heeded journal → Alternating (buzzes journal) ∧ lastBuzz journal = buzzing

/-- Neither asking for the sound timer nor turning the buzzer changes what is said of it. -/
structure Rig.Steady {ε σ : Type} (rig : Rig ε σ) : Prop where
  asked : ∀ s on t, rig.sounding s = .ok on t → answer (rig.sounding t) = some on
  turned : ∀ on s t, rig.buzz on s = .ok () t → answer (rig.sounding t) = answer (rig.sounding s)

theorem answer_entered {ε σ α : Type} (entry : Option α → Deed) (act : EStateM ε σ α)
    (s : Journaled σ) : answer (entered entry act s) = answer (act s.state) := by
  unfold entered
  cases act s.state <;> rfl

theorem entered_eq_ok {ε σ α : Type} {entry : Option α → Deed} {act : EStateM ε σ α}
    {s t : Journaled σ} {a : α} (h : entered entry act s = .ok a t) :
    act s.state = .ok a t.state := by
  unfold entered at h
  cases hact : act s.state with
  | ok b u =>
    rw [hact] at h
    cases h
    rfl
  | error e u =>
    rw [hact] at h
    cases h

theorem Rig.Steady.journaled {ε σ : Type} {rig : Rig ε σ} (hsteady : rig.Steady) :
    rig.journaled.Steady := by
  have hanswer : ∀ s, answer (rig.journaled.sounding s) = answer (rig.sounding s.state) :=
    answer_entered .sound rig.sounding
  constructor
  case asked =>
    intro s on t h
    rw [hanswer]
    exact hsteady.asked s.state on t.state (entered_eq_ok h)
  case turned =>
    intro on s t h
    change entered (fun a => .buzz on a.isSome) (rig.buzz on) s = .ok () t at h
    rw [hanswer, hanswer]
    exact hsteady.turned on s.state t.state (entered_eq_ok h)

theorem Console.steady_rig {ρ : Type} [Screen ρ] : (rig : Rig Error (Console ρ)).Steady where
  asked := by
    intro c on c' h
    cases h
    rfl
  turned := by
    intro on c c' h
    have hleft : c' = left (buzz on c) := (congrArg left h).symm
    rw [hleft, left_buzz]
    rfl

namespace Followed

variable {journal more : List Deed} {buzzing on : Bool}

theorem quiet (h : Followed journal buzzing) (hmore : buzzes more = []) :
    Followed (journal ++ more) buzzing := by
  intro hheeded
  unfold lastBuzz
  rw [buzzes_append, hmore, List.append_nil]
  exact h hheeded.of_append

theorem turned (h : Followed journal buzzing) (hon : on ≠ buzzing) :
    Followed (journal ++ [.buzz on true]) on := by
  intro hheeded
  obtain ⟨halternating, hlast⟩ := h hheeded.of_append
  have happend : buzzes (journal ++ [.buzz on true]) = buzzes journal ++ [on] :=
    buzzes_append journal _
  unfold lastBuzz
  rw [happend, List.getLastD_concat]
  refine ⟨halternating.append ?_, rfl⟩
  rwa [← hlast] at hon

theorem refused (journal : List Deed) (on buzzing : Bool) :
    Followed (journal ++ [.buzz on false]) buzzing :=
  fun hheeded => absurd (List.mem_append_right journal (List.mem_singleton_self _)) (hheeded on)

end Followed

namespace Clock

variable {τ σ ε α : Type}

def Following (d : Driven τ (Journaled σ)) : Prop := Followed d.rig.journal d.clock.buzzing

theorem keeps_following_entered {deed : Option α → Deed} (hdeed : ∀ a, buzzes [deed a] = [])
    (act : EStateM ε σ α) :
    Keeps Following (onRig (entered deed act) : Drive τ (Journaled σ) ε α) := by
  apply Keeps.onRig
  intro d hd
  unfold entered
  cases act d.rig.state with
  | ok a s => exact Followed.quiet hd (hdeed (some a))
  | error e s => exact Followed.quiet hd (hdeed none)

theorem following_setBuzzer (rig : Rig ε σ) {d : Driven τ (Journaled σ)} (hd : Following d)
    {on : Bool} (hon : on ≠ d.clock.buzzing) :
    Following (left (setBuzzer rig.journaled on d)) := by
  have hturned := turned_setBuzzer rig on d
  generalize setBuzzer rig.journaled on d = r at hturned
  cases hturned with
  | refused e s => exact Followed.refused _ on _
  | turned s hbuzz => exact Followed.turned hd hon

theorem keeps_following_updateBuzzer (rig : Rig ε σ) :
    Keeps Following (updateBuzzer rig.journaled : Drive τ (Journaled σ) ε Unit) := by
  intro d hd
  have hentered : rig.journaled.sounding = entered .sound rig.sounding := rfl
  rw [updateBuzzer_eq, hentered]
  unfold entered
  cases rig.sounding d.rig.state with
  | error e s => exact Followed.quiet hd rfl
  | ok on s =>
    have hasked : Following ⟨d.clock, ⟨s, d.rig.journal ++ [.sound (some on)]⟩⟩ :=
      Followed.quiet hd rfl
    dsimp only
    split
    · exact hasked
    · rename_i hon
      exact following_setBuzzer rig hasked hon

theorem answer_of_updateBuzzer {rig : Rig ε σ} (hsteady : rig.Steady) {d e : Driven τ σ}
    (h : updateBuzzer rig d = .ok () e) : answer (rig.sounding e.rig) = some e.clock.buzzing := by
  rw [updateBuzzer_eq] at h
  cases hsounding : rig.sounding d.rig with
  | error f s =>
    rw [hsounding] at h
    cases h
  | ok on s =>
    have hasked := hsteady.asked _ _ _ hsounding
    rw [hsounding] at h
    dsimp only at h
    split at h
    · rename_i hon
      cases h
      rw [hasked, hon]
    · obtain ⟨t, hbuzz, rfl⟩ := setBuzzer_eq_ok h
      exact (hsteady.turned _ _ _ hbuzz).trans hasked

theorem off_finish (rig : Rig ε σ) (ending : Ending ε) (d : Driven τ (Journaled σ)) (rest : List τ)
    (hheeded : Heeded (finish rig.journaled ending d rest).state.rig.journal) :
    (finish rig.journaled ending d rest).state.clock.buzzing = false := by
  unfold finish at hheeded ⊢
  cases hbuzzing : d.clock.buzzing with
  | false => exact hbuzzing
  | true =>
    rw [hbuzzing, if_pos rfl] at hheeded
    rw [if_pos rfl]
    have hturned := turned_setBuzzer rig false d
    generalize setBuzzer rig.journaled false d = r at hturned hheeded
    cases hturned with
    | refused e s =>
      exact absurd (List.mem_append_right _ (List.mem_singleton_self _)) (hheeded false)
    | turned s hbuzz => rfl

theorem off_close (rig : Rig ε σ) {phase : Phase τ} (hphase : phase ≠ .starting)
    (ending : Ending ε) (d : Driven τ (Journaled σ)) (rest : List τ)
    (hheeded : Heeded (close rig.journaled phase ending d rest).state.rig.journal) :
    (close rig.journaled phase ending d rest).state.clock.buzzing = false := by
  cases phase with
  | starting => exact absurd rfl hphase
  | passing => exact off_finish rig ending d rest hheeded
  | waiting time => exact off_finish rig ending d rest hheeded

variable [TimeLine τ]

theorem keeps_following_start (now : τ) :
    Keeps Following (onClock (start now) : Drive τ (Journaled σ) ε Unit) := by
  apply Keeps.onClock
  intro d hd
  rw [start_eq]
  split
  · exact hd
  · exact hd

theorem keeps_following_runDue (rig : Rig ε σ) (now : τ) :
    Keeps Following (runDue rig.journaled now) := by
  intro d hd
  have hcycled := cycled_runDue rig now d
  generalize left (runDue rig.journaled now d) = e at hcycled
  cases hcycled with
  | idle hdue => exact hd
  | failed hdue s => exact Followed.quiet hd rfl
  | done hdue s =>
    obtain ⟨nextCycle, cycles, hleft⟩ := exists_left_advance now d.clock
    rw [hleft]
    exact Followed.quiet hd rfl

theorem keeps_following_catchUp (rig : Rig ε σ) (now : τ) :
    Keeps Following (catchUp rig.journaled now) := by
  have hnext : ∀ (d : Driven τ (Journaled σ)) (nextTick : τ), Following d →
      Following { d with clock := { d.clock with nextTick } } := fun _ _ hd => hd
  have hdeed : ∀ a : Option Unit, buzzes [.tick a.isSome] = [] := fun _ => rfl
  apply Keeps.get_bind
  exact fun d => keeps_tickUntil hnext (keeps_following_entered hdeed rig.tick) now _

theorem upheld_following (rig : Rig ε σ) : Upheld (τ := τ) rig.journaled Following := by
  have hrated : Unrated (τ := τ) (σ := Journaled σ) Following := fun _ _ _ _ _ hd => hd
  constructor
  case start => exact keeps_following_start
  case reportRates =>
    apply keeps_reportRates hrated
    intro frames cycles
    have hdeed : ∀ a : Option Unit, buzzes [.report frames cycles a.isSome] = [] := fun _ => rfl
    exact keeps_following_entered hdeed (rig.report frames cycles)
  case showFrame =>
    apply keeps_showFrame hrated
    · exact keeps_following_entered (fun _ => rfl) rig.poll
    · have hdeed : ∀ a : Option Unit, buzzes [.refresh a.isSome] = [] := fun _ => rfl
      exact keeps_following_entered hdeed rig.refresh
  case catchUp => exact keeps_following_catchUp rig
  case runDue => exact keeps_following_runDue rig
  case updateBuzzer => exact keeps_following_updateBuzzer rig
  case quieten =>
    intro d hd hbuzzing
    apply following_setBuzzer rig hd
    rw [hbuzzing]
    exact Bool.false_ne_true

theorem following_after (rig : Rig ε σ) (interval : Option τ) (zero : τ) (s : σ)
    (calls : List (Call τ)) :
    Following (after rig.journaled (Driven.unwritten ⟨new interval zero, s⟩) calls) := by
  apply (upheld_following rig).after
  intro _
  refine ⟨?_, rfl⟩
  exact fun k hk => absurd hk (Nat.not_lt_zero k)

/-! ## After a step -/

/-- A step has just gone through: one that was asked for, or one of a run under way. -/
inductive Stepped (rig : Rig ε σ) (d : Driven τ σ) : Driven τ σ → Prop
  | asked {calls : List (Call τ)} {now : τ} {ran : Bool} {e : Driven τ σ}
    (h : step rig now (after rig d calls) = .ok ran e) : Stepped rig d e
  | inRun {calls : List (Call τ)} {readings : List τ} {now : τ} {phase : Phase τ}
    {d' e : Driven τ σ}
    (hrun : underWay rig .starting readings (after rig d calls) = some (.passing, d'))
    (h : observe rig .passing now d' = .ok (some phase) e) : Stepped rig d e

theorem Upheld.stepped {rig : Rig ε σ} {I : Driven τ σ → Prop} (h : Upheld rig I)
    {d e : Driven τ σ} (hd : I d) (hstepped : Stepped rig d e) : I e := by
  cases hstepped with
  | @asked calls now ran _ hstep =>
    have hleft := h.step now _ (h.after calls hd)
    rwa [hstep] at hleft
  | @inRun calls readings now phase d' _ hrun hpass =>
    have hleft := h.observe .passing now d' (h.underWay (h.after calls hd) hrun)
    rwa [hpass] at hleft

theorem Stepped.answer_eq {rig : Rig ε σ} (hsteady : rig.Steady) {d e : Driven τ σ}
    (h : Stepped rig d e) : answer (rig.sounding e.rig) = some e.clock.buzzing := by
  cases h with
  | asked hstep =>
    obtain ⟨_, _, -, -, hbuzzer⟩ := step_eq_ok hstep
    exact answer_of_updateBuzzer hsteady hbuzzer
  | inRun hrun hpass =>
    obtain ⟨_, _, _, -, -, hstep, -⟩ := pass_eq_some hpass
    obtain ⟨_, _, -, -, hbuzzer⟩ := step_eq_ok hstep
    exact answer_of_updateBuzzer hsteady hbuzzer

/-! ## After a run -/

theorem off_runFrom (rig : Rig ε σ) {phase : Phase τ} (hphase : phase ≠ .starting)
    (readings : List τ) (d : Driven τ (Journaled σ))
    (hheeded : Heeded (runFrom rig.journaled phase readings d).state.rig.journal) :
    (runFrom rig.journaled phase readings d).state.clock.buzzing = false := by
  induction readings generalizing phase d with
  | nil => exact off_close rig hphase .unread d [] hheeded
  | cons now rest ih =>
    unfold runFrom at hheeded ⊢
    cases hobserve : observe rig.journaled phase now d with
    | error stop e =>
      rw [hobserve] at hheeded
      exact off_close rig hphase _ e rest hheeded
    | ok next e =>
      rw [hobserve] at hheeded
      cases next with
      | none => exact off_close rig hphase .quit e rest hheeded
      | some phase' => exact ih (observe_ne_starting hobserve) e hheeded

theorem off_run (rig : Rig ε σ) {first : τ} (hcheck : TimeLine.check first = .ok ())
    (rest : List τ) (d : Driven τ (Journaled σ))
    (hheeded : Heeded (run rig.journaled (first :: rest) d).state.rig.journal) :
    (run rig.journaled (first :: rest) d).state.clock.buzzing = false := by
  obtain ⟨e, hobserve⟩ : ∃ e, observe rig.journaled .starting first d = .ok (some .passing) e := by
    have hstarting : observe rig.journaled .starting first d =
        (onClock (start first) >>= fun _ => Pure.pure (some Phase.passing)) d := rfl
    rw [hstarting, bind_apply]
    unfold onClock
    rw [start_eq, hcheck]
    exact ⟨_, rfl⟩
  unfold run runFrom at hheeded ⊢
  rw [hobserve] at hheeded ⊢
  exact off_runFrom rig (observe_ne_starting hobserve) rest e hheeded

/-- Whatever is asked of a new clock, and whatever its calls end with, the buzzer is asked to be
on, off, on, and so forth, as long as it never refuses.  After each step that goes through, it is
on just if the sound timer runs.  After each run that got its first reading, it is off. -/
theorem buzzer_follows_sound (rig : Rig ε σ) (hsteady : rig.Steady) (interval : Option τ) (zero : τ)
    (s : σ) :
    (∀ calls, Heeded (deeds rig ⟨new interval zero, s⟩ calls) →
      Alternating (buzzes (deeds rig ⟨new interval zero, s⟩ calls))) ∧
    (∀ e, Stepped rig.journaled (Driven.unwritten ⟨new interval zero, s⟩) e →
      Heeded e.rig.journal →
      answer (rig.sounding e.rig.state) = some e.clock.buzzing ∧
        e.clock.buzzing = lastBuzz e.rig.journal) ∧
    ∀ calls first rest, TimeLine.check first = .ok () →
      Heeded (deeds rig ⟨new interval zero, s⟩ (calls ++ [.run (first :: rest)])) →
      (run rig (first :: rest) (after rig ⟨new interval zero, s⟩ calls)).state.clock.buzzing =
          false ∧
        lastBuzz (deeds rig ⟨new interval zero, s⟩ (calls ++ [.run (first :: rest)])) = false := by
  have hfollowing := following_after rig interval zero s
  refine ⟨fun calls hheeded => (hfollowing calls hheeded).1, ?_, ?_⟩
  · intro e hstepped hheeded
    have hfirst : Following (Driven.unwritten ⟨new interval zero, s⟩) := hfollowing []
    obtain ⟨-, hlast⟩ := (upheld_following rig).stepped hfirst hstepped hheeded
    have hanswer := hstepped.answer_eq hsteady.journaled
    have hplain := answer_entered .sound rig.sounding e.rig
    exact ⟨hplain.symm.trans hanswer, hlast.symm⟩
  · intro calls first rest hcheck hheeded
    have hplain := runFrom_journaled rig .starting (first :: rest)
      (after rig.journaled (Driven.unwritten ⟨new interval zero, s⟩) calls)
    rw [after_journaled] at hplain
    have hlast := hfollowing (calls ++ [.run (first :: rest)])
    unfold deeds at hheeded ⊢
    rw [after_append] at hheeded hlast ⊢
    have hoff := off_run rig hcheck rest _ hheeded
    constructor
    · exact (congrArg (fun f => f.state.clock.buzzing) hplain).symm.trans hoff
    · exact (hlast hheeded).2.trans hoff

/-- The buzzer goes on with a step, and off after a run that ends with a fault. -/
theorem buzzer_of_humming :
    Rig.Steady (Console.rig : Rig Console.Error (Console Grid)) ∧
      Alternating (buzzes (deeds Console.rig
        ⟨new (some (Number.real 0.5)) (.real 0.0), Console.humming⟩
        [.start (.real 2.0), .step (.real 1.0)])) ∧
      lastBuzz (deeds Console.rig ⟨new (some (Number.real 0.5)) (.real 0.0), Console.humming⟩
        [.start (.real 2.0), .step (.real 1.0)]) = true ∧
      (run Console.rig [.real 3.0, .real 3.0]
        (after Console.rig ⟨new (some (Number.real 0.5)) (.real 0.0), Console.humming⟩
          [.start (.real 2.0), .step (.real 1.0)])).state.clock.buzzing = false := by
  obtain ⟨halternating, -, hoff⟩ := buzzer_follows_sound Console.rig Console.steady_rig
    (some (Number.real 0.5)) (.real 0.0) Console.humming
  have hheeded : Heeded (deeds Console.rig
      ⟨new (some (Number.real 0.5)) (.real 0.0), Console.humming⟩
      [.start (.real 2.0), .step (.real 1.0)]) := by decide +kernel
  have hheeded' : Heeded (deeds Console.rig
      ⟨new (some (Number.real 0.5)) (.real 0.0), Console.humming⟩
      ([.start (.real 2.0), .step (.real 1.0)] ++ [.run [.real 3.0, .real 3.0]])) := by
    decide +kernel
  refine ⟨Console.steady_rig, halternating _ hheeded, by decide +kernel, ?_⟩
  exact (hoff [.start (.real 2.0), .step (.real 1.0)] (.real 3.0) [.real 3.0] rfl hheeded').1

end Clock

end Chip8
