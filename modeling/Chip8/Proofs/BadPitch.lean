import Chip8.Proofs.Playback

/-!
# Pitches without a wave

What a request for a pitch that no wave is built from leaves of a mixer.  The pitch is recorded and
the current sound is stopped before the wave is tried, and neither is taken back when that fails.
The buzzer is on then and nothing plays; and since the pitch counts as in force, asking for it again
succeeds.  Other requests may come before and after, and they may have failed as well.
-/

namespace Chip8

namespace Mixer

/-- What has become of a mixer, whether or not its requests failed: its calls so far, and the pitch
that its current sound was built from. -/
structure History where
  mixer : Mixer
  calls : List HostCall
  built : Number

/-- A mixer that was just opened, on a host that takes every call. -/
def History.opened (room : Memory.Room) : History :=
  ⟨(new room []).state, (new room []).calls, standardPitch⟩

/-- A request builds from its pitch if it makes a new sound. -/
def History.after (room : Memory.Room) (h : History) (r : Request) : History where
  mixer := (h.mixer.serve room r).state
  calls := h.calls ++ (h.mixer.serve room r).calls
  built := if (h.mixer.serve room r).state.made = h.mixer.made then h.built else r.pitch h.built

def history (room : Memory.Room) (requests : List Request) : History :=
  requests.foldl (History.after room) (.opened room)

variable {room : Memory.Room} {m : Mixer} {h : History} {hertz : Number} {samples : Array UInt8}
  {sound : Nat} {e : SquareWave.Error}

/-! ## Requests for a pitch -/

theorem setFrequency_of_playable (hobeyed : m.answers = []) (hnew : ¬m.InForce hertz)
    (hsound : m.sound = some sound)
    (hsamples : SquareWave.samples room hertz = .ok samples) :
    m.setFrequency room hertz = .done (m.retuned hertz)
      ((if m.buzzing then [.stop sound] else []) ++ ([.newSound m.made samples,
        .volume m.made level] ++ if m.buzzing then [.play m.made (-1)] else [])) := by
  cases hbuzzing : m.buzzing with
  | false => exact setFrequency_of_silent hobeyed hnew hbuzzing hsamples
  | true => exact setFrequency_of_buzzing hobeyed hnew hbuzzing hsound hsamples

/-- A pitch without a wave is recorded, and the current sound stopped, before the request fails. -/
theorem setFrequency_of_unplayable (hobeyed : m.answers = []) (hnew : ¬m.InForce hertz)
    (hsound : m.sound = some sound)
    (hwave : SquareWave.samples room hertz = .error e) :
    m.setFrequency room hertz =
      ⟨{ m with frequency := some hertz }, if m.buzzing then [.stop sound] else [],
        some (.wave e)⟩ := by
  obtain ⟨frequency, buzzing, _, made, _⟩ := m
  cases hsound
  cases hobeyed
  unfold InForce at hnew
  unfold setFrequency makeSound
  rw [if_neg hnew, hwave]
  cases buzzing <;> rfl

theorem not_playable (hwave : SquareWave.samples room hertz = .error e) : ¬Playable room hertz := by
  unfold Playable
  rw [hwave]
  exact Bool.false_ne_true

/-! ## What every request keeps -/

/-- The host takes every call.  Sounds are numbered as they are made, the last is the current one,
and no other plays, nor any while the buzzer is off.  The pitch on record is the one that the
current sound was built from, or there is no wave of it. -/
structure Steady (room : Memory.Room) (h : History) : Prop where
  made : soundsMade h.calls = List.range h.mixer.made
  ready : 0 < h.mixer.made
  current : h.mixer.sound = some (h.mixer.made - 1)
  obeyed : h.mixer.answers = []
  alone : ∀ sound, playing h.calls sound = true →
    h.mixer.buzzing = true ∧ h.mixer.sound = some sound
  wave : ∃ samples, SquareWave.samples room h.built = .ok samples ∧
    .newSound (h.mixer.made - 1) samples ∈ h.calls
  recorded : ∃ pitch, h.mixer.frequency = some pitch ∧ (Playable room pitch → pitch = h.built)

theorem steady_opened (hroom : Playable room standardPitch) : Steady room (.opened room) := by
  obtain ⟨samples, hsamples⟩ := hroom.exists_samples
  have hnew := new_eq hsamples
  unfold History.opened
  rw [hnew]
  refine ⟨rfl, Nat.one_pos, rfl, rfl, ?_, ⟨samples, hsamples, ?_⟩,
    ⟨standardPitch, rfl, fun _ => rfl⟩⟩
  · intro sound hplaying
    cases hplaying
  · simp [mute, retuned]

theorem History.after_eq {r : Request} {calls : List HostCall} {failure : Option Error}
    (hr : h.mixer.serve room r = ⟨m, calls, failure⟩) :
    h.after room r =
      ⟨m, h.calls ++ calls, if m.made = h.mixer.made then h.built else r.pitch h.built⟩ := by
  unfold History.after
  rw [hr]

theorem History.after_eq_self {r : Request} (hr : h.mixer.serve room r = .done h.mixer []) :
    h.after room r = h := by
  rw [History.after_eq hr, if_pos rfl, List.append_nil]

/-- Once the current sound was stopped, if the buzzer was on, nothing plays. -/
theorem Steady.quiet (hs : Steady room h) (sound : Nat) :
    playing (h.calls ++ if h.mixer.buzzing then [.stop (h.mixer.made - 1)] else []) sound =
      false := by
  cases hbuzzing : h.mixer.buzzing with
  | false =>
    rw [if_neg Bool.false_ne_true, List.append_nil, Bool.eq_false_iff]
    intro hplaying
    have hon := (hs.alone sound hplaying).1
    rw [hbuzzing] at hon
    cases hon
  | true =>
    rw [if_pos rfl]
    apply playing_stop
    intro other hplaying
    have hcurrent := (hs.alone other hplaying).2
    rw [hs.current] at hcurrent
    exact (Option.some.inj hcurrent).symm

theorem Steady.enable_other (hs : Steady room h) {on : Bool} (hon : on ≠ h.mixer.buzzing) :
    Steady room (h.after room (.enable on)) := by
  have hserve : h.mixer.serve room (.enable on) = _ := Mixer.enable_other hs.obeyed hs.current hon
  obtain ⟨samples, hsamples, hsound⟩ := hs.wave
  have hquiet := hs.quiet
  rw [History.after_eq hserve, if_pos rfl]
  refine ⟨?_, hs.ready, hs.current, hs.obeyed, ?_,
    ⟨samples, hsamples, List.mem_append_left _ hsound⟩,
    hs.recorded⟩
  · rw [soundsMade_append, hs.made]
    cases on <;> exact List.append_nil _
  · intro sound hplaying
    cases on with
    | false =>
      rw [Bool.eq_true_of_not_eq_false hon.symm, if_pos rfl] at hquiet
      rw [if_neg Bool.false_ne_true, hquiet] at hplaying
      cases hplaying
    | true =>
      rw [Bool.eq_false_of_not_eq_true hon.symm, if_neg Bool.false_ne_true, List.append_nil]
        at hquiet
      rw [if_pos rfl, playing_concat, HostCall.heard, Function.update_apply, hquiet] at hplaying
      by_cases hother : sound = h.mixer.made - 1
      · exact ⟨rfl, hother ▸ hs.current⟩
      · rw [if_neg hother] at hplaying
        cases hplaying

theorem Steady.setFrequency (hs : Steady room h) (hnew : ¬h.mixer.InForce hertz)
    (hsamples : SquareWave.samples room hertz = .ok samples) :
    Steady room (h.after room (.setFrequency hertz)) := by
  have hserve : h.mixer.serve room (.setFrequency hertz) = _ :=
    setFrequency_of_playable hs.obeyed hnew hs.current hsamples
  have hquiet := hs.quiet
  have hmade : (h.mixer.retuned hertz).made ≠ h.mixer.made := Nat.succ_ne_self _
  rw [History.after_eq hserve, if_neg hmade]
  refine ⟨?_, Nat.succ_pos _, rfl, hs.obeyed, ?_, ⟨samples, hsamples, ?_⟩,
    ⟨hertz, rfl, fun _ => rfl⟩⟩
  · rw [soundsMade_append, hs.made]
    change _ = List.range (h.mixer.made + 1)
    rw [List.range_succ]
    cases h.mixer.buzzing <;> rfl
  · intro sound hplaying
    dsimp only at hplaying
    rw [← List.append_assoc, playing_append, funext hquiet] at hplaying
    cases hbuzzing : h.mixer.buzzing with
    | false =>
      rw [hbuzzing] at hplaying
      cases hplaying
    | true =>
      have hplays : sound = h.mixer.made := by
        rw [hbuzzing] at hplaying
        simpa [HostCall.heard, Function.update_apply] using hplaying
      exact ⟨hbuzzing, congrArg some hplays.symm⟩
  · simp [retuned]

/-- A request that fails leaves nothing playing, and its pitch on record. -/
theorem after_of_unplayable (hs : Steady room h) (hnew : ¬h.mixer.InForce hertz)
    (hwave : SquareWave.samples room hertz = .error e) :
    h.after room (.setFrequency hertz) =
      ⟨{ h.mixer with frequency := some hertz },
        h.calls ++ (if h.mixer.buzzing then [.stop (h.mixer.made - 1)] else []), h.built⟩ := by
  have hserve : h.mixer.serve room (.setFrequency hertz) = _ :=
    setFrequency_of_unplayable hs.obeyed hnew hs.current hwave
  rw [History.after_eq hserve, if_pos rfl]

theorem Steady.setFrequency_of_unplayable (hs : Steady room h) (hnew : ¬h.mixer.InForce hertz)
    (hwave : SquareWave.samples room hertz = .error e) :
    Steady room (h.after room (.setFrequency hertz)) := by
  obtain ⟨samples, hsamples, hsound⟩ := hs.wave
  have hquiet := hs.quiet
  rw [after_of_unplayable hs hnew hwave]
  refine ⟨?_, hs.ready, hs.current, hs.obeyed, ?_,
    ⟨samples, hsamples, List.mem_append_left _ hsound⟩,
    ⟨hertz, rfl, fun hplayable => absurd hplayable (not_playable hwave)⟩⟩
  · rw [soundsMade_append, hs.made]
    cases h.mixer.buzzing <;> exact List.append_nil _
  · intro sound hplaying
    rw [hquiet] at hplaying
    cases hplaying

theorem Steady.after (hs : Steady room h) (r : Request) : Steady room (h.after room r) := by
  -- Only a change of the buzzer or of the pitch does anything; a pitch may have a wave or not.
  cases r with
  | enable on =>
    by_cases hon : on = h.mixer.buzzing
    · subst hon
      have hserve : h.mixer.serve room (.enable h.mixer.buzzing) = _ := enable_same h.mixer
      rwa [History.after_eq_self hserve]
    · exact hs.enable_other hon
  | setFrequency hertz =>
    by_cases hnew : h.mixer.InForce hertz
    · have hserve : h.mixer.serve room (.setFrequency hertz) = _ := setFrequency_of_inForce hnew
      rwa [History.after_eq_self hserve]
    · cases hwave : SquareWave.samples room hertz with
      | ok samples => exact hs.setFrequency hnew hwave
      | error e => exact hs.setFrequency_of_unplayable hnew hwave

theorem steady_history (hroom : Playable room standardPitch) (requests : List Request) :
    Steady room (history room requests) := by
  induction requests using List.reverseRecOn with
  | nil => exact steady_opened hroom
  | append_singleton rest r ih =>
    unfold history at ih ⊢
    rw [List.foldl_concat]
    exact ih.after r

/-! ## Requests that fail -/

/-- What asking for a pitch without a wave leaves, unless it equals the one on record. -/
structure Mistuned (room : Memory.Room) (h : History) (hertz : Number) (e : SquareWave.Error) :
    Prop where
  reply : h.mixer.setFrequency room hertz =
    ⟨{ h.mixer with frequency := some hertz },
      if h.mixer.buzzing then [.stop (h.mixer.made - 1)] else [], some (.wave e)⟩
  recorded : (h.after room (.setFrequency hertz)).mixer.frequency = some hertz
  built : (h.after room (.setFrequency hertz)).built = h.built
  astray : hertz ≠ h.built
  silent : ∀ sound, playing (h.after room (.setFrequency hertz)).calls sound = false
  accepted : hertz.equals hertz = true →
    (h.after room (.setFrequency hertz)).mixer.setFrequency room hertz =
      .done (h.after room (.setFrequency hertz)).mixer []
  refused : hertz.equals hertz = false →
    ((h.after room (.setFrequency hertz)).mixer.setFrequency room hertz).failure = some (.wave e)

theorem Steady.mistuned (hs : Steady room h) (hnew : ¬h.mixer.InForce hertz)
    (hwave : SquareWave.samples room hertz = .error e) : Mistuned room h hertz e := by
  have hafter := after_of_unplayable hs hnew hwave
  refine ⟨Mixer.setFrequency_of_unplayable hs.obeyed hnew hs.current hwave, ?_, ?_, ?_, ?_, ?_, ?_⟩
  · rw [hafter]
  · rw [hafter]
  · rintro rfl
    obtain ⟨samples, hsamples, -⟩ := hs.wave
    rw [hwave] at hsamples
    cases hsamples
  · rw [hafter]
    exact hs.quiet
  · intro hself
    rw [hafter]
    exact setFrequency_of_inForce hself
  · intro hself
    have hagain : ¬({ h.mixer with frequency := some hertz } : Mixer).InForce hertz := by
      unfold InForce
      rw [Option.any_some, hself]
      exact Bool.false_ne_true
    have hcurrent : ({ h.mixer with frequency := some hertz } : Mixer).sound =
        some (h.mixer.made - 1) := hs.current
    have hobeyed : ({ h.mixer with frequency := some hertz } : Mixer).answers = [] := hs.obeyed
    rw [hafter]
    exact congrArg Reply.failure
      (Mixer.setFrequency_of_unplayable hobeyed hagain hcurrent hwave)

/-- A request for a pitch fails and leaves everything as it was, so that it fails again. -/
structure Unharmed (room : Memory.Room) (h : History) (hertz : Number) : Prop where
  fails : ∃ e, (h.mixer.setFrequency room hertz).failure = some e
  mixer : (h.after room (.setFrequency hertz)).mixer = h.mixer
  heard : playing (h.after room (.setFrequency hertz)).calls = playing h.calls
  again : ∃ e, ((h.after room (.setFrequency hertz)).mixer.setFrequency room hertz).failure = some e
  built : (h.after room (.setFrequency hertz)).mixer.frequency =
    some (h.after room (.setFrequency hertz)).built

theorem Steady.not_unharmed (hs : Steady room h)
    (hwave : SquareWave.samples room hertz = .error e) : ¬Unharmed room h hertz := by
  intro hunharmed
  by_cases hnew : h.mixer.InForce hertz
  · obtain ⟨failure, hfails⟩ := hunharmed.fails
    rw [setFrequency_of_inForce hnew] at hfails
    cases hfails
  · have hm := hs.mistuned hnew hwave
    have hbuilt := hunharmed.built
    rw [hm.recorded, hm.built] at hbuilt
    exact hm.astray (Option.some.inj hbuilt)

/-- Whatever was asked of a mixer, and whether or not that failed, the pitch on record is the one
that its current sound was built from unless there is no wave of it.  Asking for a pitch without a
wave does nothing if it equals the one on record.  Else it fails but is recorded nonetheless, and
silences the mixer even if the buzzer is on; only what is no number fails again. -/
theorem failed_pitch_is_recorded (hroom : Playable room standardPitch) (requests : List Request)
    {hertz : Number} {e : SquareWave.Error} (hwave : SquareWave.samples room hertz = .error e) :
    Steady room (history room requests) ∧
      ((history room requests).mixer.InForce hertz →
        (history room requests).mixer.setFrequency room hertz =
          .done (history room requests).mixer []) ∧
      (¬(history room requests).mixer.InForce hertz →
        Mistuned room (history room requests) hertz e) ∧
      ¬Unharmed room (history room requests) hertz := by
  have hs := steady_history hroom requests
  exact ⟨hs, setFrequency_of_inForce, fun hnew => hs.mistuned hnew hwave, hs.not_unharmed hwave⟩

theorem samples_of_shape {e : ArithmeticError} (hshape : SquareWave.shape hertz = .error e) :
    SquareWave.samples room hertz = .error (.arithmetic e) := by
  unfold SquareWave.samples
  rw [hshape]
  rfl

theorem samples_zero :
    SquareWave.samples room (.whole 0) = .error (.arithmetic .divisionByZero) :=
  samples_of_shape (by decide +kernel)

theorem samples_nan :
    SquareWave.samples room (.real (0.0 / 0.0)) = .error (.arithmetic .notANumber) :=
  samples_of_shape (by decide +kernel)

/-- There is no wave of zero, nor of what is no number: a buzzer that is on falls silent, and only
zero is accepted when it is asked for again. -/
theorem recorded_of_zero_and_nan :
    Playable .gigabyte standardPitch ∧
      Mistuned .gigabyte (history .gigabyte [.enable true]) (.whole 0)
        (.arithmetic .divisionByZero) ∧
      (history .gigabyte [.enable true, .setFrequency (.whole 0)]).mixer.setFrequency .gigabyte
        (.whole 0) = .done (history .gigabyte [.enable true, .setFrequency (.whole 0)]).mixer [] ∧
      Mistuned .gigabyte (history .gigabyte [.enable true]) (.real (0.0 / 0.0))
        (.arithmetic .notANumber) ∧
      ((history .gigabyte [.enable true, .setFrequency (.real (0.0 / 0.0))]).mixer.setFrequency
        .gigabyte (.real (0.0 / 0.0))).failure = some (.wave (.arithmetic .notANumber)) := by
  have hroom : Playable .gigabyte standardPitch := playable_standardPitch_iff.2 (by decide)
  have hzero : ¬(history .gigabyte [.enable true]).mixer.InForce (.whole 0) := by decide +kernel
  have hnan : ¬(history .gigabyte [.enable true]).mixer.InForce (.real (0.0 / 0.0)) := by
    decide +kernel
  have hzeroSelf : (Number.whole 0).equals (.whole 0) = true := rfl
  have hnanSelf : (Number.real (0.0 / 0.0)).equals (.real (0.0 / 0.0)) = false := by decide +kernel
  obtain ⟨-, -, hmistuned, -⟩ := failed_pitch_is_recorded hroom [.enable true] samples_zero
  obtain ⟨-, -, hlost, -⟩ := failed_pitch_is_recorded hroom [.enable true] samples_nan
  exact ⟨hroom, hmistuned hzero, (hmistuned hzero).accepted hzeroSelf, hlost hnan,
    (hlost hnan).refused hnanSelf⟩

theorem history_enable {samples : Array UInt8}
    (hsamples : SquareWave.samples room standardPitch = .ok samples) :
    history room [.enable true] =
      ⟨{ mute.retuned standardPitch with buzzing := true },
        [.setupMixer 44100 8 1 512 0, .openMixer, .frequency standardPitch, .newSound 0 samples,
          .volume 0 level, .play 0 (-1)], standardPitch⟩ := by
  have hopened : History.opened room =
      ⟨mute.retuned standardPitch, [.setupMixer 44100 8 1 512 0, .openMixer,
        .frequency standardPitch, .newSound 0 samples, .volume 0 level], standardPitch⟩ := by
    unfold History.opened
    rw [new_eq hsamples]
    rfl
  change (History.opened room).after room (.enable true) = _
  rw [hopened]
  rfl

/-- A pitch of zero is asked for while the buzzer is on.  The request fails but is recorded, nothing
plays any more, and the same request goes through then. -/
theorem zero_pitch_silences_buzzer :
    (history .gigabyte [.enable true]).mixer.buzzing = true ∧
      (history .gigabyte [.enable true]).mixer.frequency = some standardPitch ∧
      playing (history .gigabyte [.enable true]).calls 0 = true ∧
      (∃ n, (history .gigabyte [.enable true]).mixer.setFrequency .gigabyte (.whole 0) =
          ⟨n, [.stop 0], some (.wave (.arithmetic .divisionByZero))⟩ ∧
        n.buzzing = true ∧ n.frequency = some (.whole 0) ∧
        n.setFrequency .gigabyte (.whole 0) = .done n []) ∧
      playing (history .gigabyte [.enable true, .setFrequency (.whole 0)]).calls 0 = false ∧
      ¬Unharmed .gigabyte (history .gigabyte [.enable true]) (.whole 0) := by
  have hroom : Playable .gigabyte standardPitch := playable_standardPitch_iff.2 (by decide)
  obtain ⟨samples, hsamples⟩ := hroom.exists_samples
  have hs := steady_history hroom [.enable true]
  have hnew : ¬(history .gigabyte [.enable true]).mixer.InForce (.whole 0) := by decide +kernel
  have hm := hs.mistuned hnew samples_zero
  have hharmed := hs.not_unharmed samples_zero
  have hsilent :
      playing (history .gigabyte [.enable true, .setFrequency (.whole 0)]).calls 0 = false :=
    hm.silent 0
  have hreply := hm.reply
  have heq := history_enable hsamples
  rw [heq] at hreply hharmed ⊢
  exact ⟨rfl, rfl, rfl, ⟨_, hreply, rfl, rfl, rfl⟩, hsilent, hharmed⟩

end Mixer

end Chip8
