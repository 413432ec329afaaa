import Chip8.Proofs.TimeLine
import Chip8.Speaker
import Mathlib.Data.List.Infix
import Mathlib.Logic.Function.Basic

/-!
# Playback

What is heard of a mixer.  At every moment no sound plays but the one that was made last, so that
none is left playing that could never be stopped again; and once a request is over, that sound plays
if the buzzer is on and is silent if it is off.
-/

namespace Chip8

/-! ## What is heard -/

/-- The sounds that play after a call.  A sound that is looped without end plays until it is
stopped. -/
def HostCall.heard (playing : Nat → Bool) : HostCall → Nat → Bool
  | .play sound loops => Function.update playing sound (decide (loops = -1))
  | .stop sound => Function.update playing sound false
  | _ => playing

def playing (calls : List HostCall) : Nat → Bool := calls.foldl HostCall.heard fun _ => false

def HostCall.made? : HostCall → Option Nat
  | .newSound sound _ => some sound
  | _ => none

def soundsMade (calls : List HostCall) : List Nat := calls.filterMap HostCall.made?

/-- A call that starts a sound starts a silent one and loops it without end, and a call that stops
a sound stops one that plays. -/
def HostCall.Apt (playing : Nat → Bool) : HostCall → Prop
  | .play sound loops => playing sound = false ∧ loops = -1
  | .stop sound => playing sound = true
  | _ => True

/-- At every moment of some calls only the sound that was made last may play, and every call is
apt. -/
structure Orderly (calls : List HostCall) : Prop where
  alone : ∀ moment, moment <+: calls → ∀ sound, playing moment sound = true →
    (soundsMade moment).getLast? = some sound
  apt : ∀ before call, before ++ [call] <+: calls → call.Apt (playing before)

theorem playing_append (calls more : List HostCall) :
    playing (calls ++ more) = more.foldl HostCall.heard (playing calls) := List.foldl_append

theorem playing_concat (calls : List HostCall) (call : HostCall) :
    playing (calls ++ [call]) = call.heard (playing calls) := playing_append calls [call]

theorem playing_stop {calls : List HostCall} {sound : Nat}
    (h : ∀ other, playing calls other = true → other = sound) (other : Nat) :
    playing (calls ++ [.stop sound]) other = false := by
  rw [playing_concat, HostCall.heard, Function.update_apply]
  by_cases hother : other = sound
  · rw [if_pos hother]
  · rw [if_neg hother, Bool.eq_false_iff]
    exact fun hplaying => hother (h other hplaying)

theorem soundsMade_append (calls more : List HostCall) :
    soundsMade (calls ++ more) = soundsMade calls ++ soundsMade more := List.filterMap_append

theorem orderly_nil : Orderly [] where
  alone := by
    intro moment hmoment sound hplaying
    rw [List.prefix_nil.1 hmoment] at hplaying
    cases hplaying
  apt := by
    intro before call hbefore
    have hnil := List.prefix_nil.1 hbefore
    simp at hnil

theorem Orderly.concat {calls : List HostCall} (h : Orderly calls) (call : HostCall)
    (hapt : call.Apt (playing calls))
    (halone : ∀ sound, playing (calls ++ [call]) sound = true →
      (soundsMade (calls ++ [call])).getLast? = some sound) : Orderly (calls ++ [call]) where
  alone := by
    intro moment hmoment
    rcases List.prefix_concat_iff.1 hmoment with rfl | hmoment
    · exact halone
    · exact h.alone moment hmoment
  apt := by
    intro before other hbefore
    rcases List.prefix_concat_iff.1 hbefore with heq | hbefore
    · obtain ⟨rfl, hcall⟩ := List.append_inj' heq rfl
      rwa [List.singleton_inj.1 hcall]
    · exact h.apt before other hbefore

/-! ## Pitches -/

def Playable (room : Memory.Room) (hertz : Number) : Prop :=
  (SquareWave.samples room hertz).isOk = true

instance (room : Memory.Room) (hertz : Number) : Decidable (Playable room hertz) :=
  inferInstanceAs (Decidable (_ = true))

theorem Playable.exists_samples {room : Memory.Room} {hertz : Number} (h : Playable room hertz) :
    ∃ samples, SquareWave.samples room hertz = .ok samples := by
  unfold Playable at h
  cases hsamples : SquareWave.samples room hertz with
  | ok samples => exact ⟨samples, rfl⟩
  | error e =>
    rw [hsamples] at h
    cases h

open Float.Model in
theorem Binary64.parts_loopLength_mul {x : Float} (hx : x.isNaN = true) :
    parts (SquareWave.loopLength * x) = .notANumber := by
  have hunpack : x.toModel.unpack = .notANumber := by
    by_contra h
    rw [Number.isNaN_eq_false_iff.2 h] at hx
    cases hx
  have hmul : SquareWave.loopLength * x =
      Float.ofModel (pack (UnpackedFloat.mul Format.binary64
        SquareWave.loopLength.toModel.unpack x.toModel.unpack)) := rfl
  rw [hmul, hunpack]
  decide +kernel

theorem SquareWave.shape_of_isNaN {x : Float} (hx : x.isNaN = true) :
    ∃ e, shape (.real x) = .error e := by
  have hround : Binary64.roundEven (loopLength * x) = .error .notANumber := by
    unfold Binary64.roundEven
    rw [Binary64.parts_loopLength_mul hx]
  have hshape : shape (.real x) =
      ((Number.real x).under rate >>= fun period =>
        Binary64.roundEven (loopLength * x) >>= fun periods =>
          (Number.whole (max 1 periods)).toFloat >>= fun factor =>
            Binary64.roundEven (period * factor) >>= fun count => .ok (max 2 count, period)) := rfl
  rw [hshape, hround]
  cases (Number.real x).under rate with
  | error e => exact ⟨e, rfl⟩
  | ok period => exact ⟨.notANumber, rfl⟩

/-- A pitch that a wave is built for is a number, and so it equals itself. -/
theorem Playable.equals_self {room : Memory.Room} {hertz : Number} (h : Playable room hertz) :
    hertz.equals hertz = true := by
  cases hertz with
  | whole n => exact beq_self_eq_true n
  | real x =>
    cases hx : x.isNaN with
    | false => exact (Number.equals_iff hx hx).2 rfl
    | true =>
      obtain ⟨e, hshape⟩ := SquareWave.shape_of_isNaN hx
      unfold Playable SquareWave.samples at h
      rw [hshape] at h
      cases h

theorem playable_iff_of_shape {room : Memory.Room} {hertz : Number} {count : Int} {period : Float}
    (hshape : SquareWave.shape hertz = .ok (count, period))
    (hperiod : (SquareWave.quotient period).isOk = true) :
    Playable room hertz ↔ 0 ≤ count ∧ count ≤ room.bytes := by
  rw [← Memory.checkSize_eq_ok_iff]
  unfold Playable SquareWave.samples
  rw [hshape]
  cases hcheck : Memory.checkSize room count with
  | error e =>
    refine iff_of_false ?_ nofun
    simp [hcheck, bind, Except.bind, Except.mapError, Except.isOk, Except.toBool]
  | ok u =>
    cases hquotient : SquareWave.quotient period with
    | error e =>
      rw [hquotient] at hperiod
      cases hperiod
    | ok v =>
      refine iff_of_true ?_ rfl
      simp [hcheck, hquotient, bind, Except.bind, pure, Except.pure, Except.mapError, Except.isOk,
        Except.toBool]

/-! ## Silence -/

structure Silent (calls : List HostCall) : Prop extends Orderly calls where
  silent : ∀ sound, playing calls sound = false

theorem silent_nil : Silent [] := { orderly_nil with silent := fun _ => rfl }

theorem Orderly.concat_silent {calls : List HostCall} (h : Orderly calls) {call : HostCall}
    (hapt : call.Apt (playing calls))
    (hsilent : ∀ sound, playing (calls ++ [call]) sound = false) : Silent (calls ++ [call]) := by
  refine { h.concat call hapt ?_ with silent := hsilent }
  intro sound hplaying
  rw [hsilent] at hplaying
  cases hplaying

theorem Silent.concat {calls : List HostCall} (h : Silent calls) (call : HostCall)
    (hapt : call.Apt (playing calls)) (hheard : call.heard (playing calls) = playing calls) :
    Silent (calls ++ [call]) := by
  apply h.toOrderly.concat_silent hapt
  intro sound
  rw [playing_concat, hheard]
  exact h.silent sound

/-- Out of silence the sound that was made last may be played, and no other plays then. -/
theorem Silent.play {calls : List HostCall} (h : Silent calls) {sound : Nat}
    (hlast : (soundsMade calls).getLast? = some sound) :
    Orderly (calls ++ [.play sound (-1)]) ∧
      ∀ other, playing (calls ++ [.play sound (-1)]) other = true ↔ sound = other := by
  have hplaying : ∀ other, playing (calls ++ [.play sound (-1)]) other = true ↔ sound = other := by
    intro other
    rw [playing_concat, HostCall.heard, Function.update_apply, h.silent]
    by_cases hother : other = sound
    · simp [hother]
    · simp [hother, Ne.symm hother]
  refine ⟨h.toOrderly.concat _ ⟨h.silent sound, rfl⟩ ?_, hplaying⟩
  intro other hother
  have hmade : soundsMade [HostCall.play sound (-1)] = [] := rfl
  rw [soundsMade_append, hmade, List.append_nil, hlast, (hplaying other).1 hother]

namespace Mixer

variable {room : Memory.Room} {m : Mixer} {hertz : Number} {samples : Array UInt8} {sound : Nat}
  {calls : List HostCall}

/-! ## Requests -/

inductive Request
  | enable (on : Bool)
  | setFrequency (hertz : Number)

def Request.Playable (room : Memory.Room) : Request → Prop
  | .enable _ => True
  | .setFrequency hertz => Chip8.Playable room hertz

instance (room : Memory.Room) : (r : Request) → Decidable (r.Playable room)
  | .enable _ => isTrue trivial
  | .setFrequency hertz => inferInstanceAs (Decidable (Chip8.Playable room hertz))

def Request.on (before : Bool) : Request → Bool
  | .enable on => on
  | .setFrequency _ => before

def Request.pitch (before : Number) : Request → Number
  | .enable _ => before
  | .setFrequency hertz => hertz

def serve (room : Memory.Room) (m : Mixer) : Request → Reply Error Mixer
  | .enable on => m.enable on
  | .setFrequency hertz => m.setFrequency room hertz

def serveAll (room : Memory.Room) (m : Mixer) : List Request → Reply Error Mixer
  | [] => .done m []
  | r :: rest => (m.serve room r).andThen (·.serveAll room rest)

/-- Opens a mixer, on a host that takes every call, and serves some requests. -/
def session (room : Memory.Room) (requests : List Request) : Reply Error Mixer :=
  (new room []).andThen (·.serveAll room requests)

def InForce (m : Mixer) (hertz : Number) : Prop := m.frequency.any hertz.equals = true

instance (m : Mixer) (hertz : Number) : Decidable (m.InForce hertz) :=
  inferInstanceAs (Decidable (_ = true))

def retuned (m : Mixer) (hertz : Number) : Mixer :=
  { m with frequency := some hertz, sound := some m.made, made := m.made + 1 }

theorem inForce_retuned (m : Mixer) (h : Chip8.Playable room hertz) :
    (m.retuned hertz).InForce hertz :=
  h.equals_self

theorem request_eq (hobeyed : m.answers = []) (calls : List HostCall) :
    m.request calls = .done m calls := by
  obtain ⟨frequency, buzzing, current, made, _⟩ := m
  cases hobeyed
  unfold request
  rw [HostCall.ask_nil]
  rfl

theorem switch_eq (hobeyed : m.answers = []) (hsound : m.sound = some sound) (on : Bool) :
    m.switch on = .done m [if on then .play sound (-1) else .stop sound] := by
  unfold switch
  rw [hsound]
  exact request_eq hobeyed _

theorem makeSound_eq (hobeyed : m.answers = [])
    (hsamples : SquareWave.samples room hertz = .ok samples) :
    m.makeSound room hertz =
      .done { m with sound := some m.made, made := m.made + 1 }
        (.newSound m.made samples :: .volume m.made level
          :: if m.buzzing then [.play m.made (-1)] else []) := by
  obtain ⟨frequency, buzzing, current, made, _⟩ := m
  cases hobeyed
  unfold makeSound
  rw [hsamples]
  dsimp only
  rw [request_eq rfl, Reply.done_andThen, request_eq rfl]
  rfl

theorem enable_same (m : Mixer) : m.enable m.buzzing = .done m [] := by
  unfold enable
  rw [if_pos rfl]
  rfl

theorem enable_other (hobeyed : m.answers = []) (hsound : m.sound = some sound) {on : Bool}
    (hon : on ≠ m.buzzing) :
    m.enable on =
      .done { m with buzzing := on } [if on then .play sound (-1) else .stop sound] := by
  unfold enable
  rw [if_neg hon, switch_eq hobeyed hsound]
  rfl

theorem setFrequency_of_inForce (h : m.InForce hertz) : m.setFrequency room hertz = .done m [] :=
  if_pos h

theorem setFrequency_of_silent (hobeyed : m.answers = []) (hnew : ¬m.InForce hertz)
    (hoff : m.buzzing = false) (hsamples : SquareWave.samples room hertz = .ok samples) :
    m.setFrequency room hertz =
      .done (m.retuned hertz) [.newSound m.made samples, .volume m.made level] := by
  obtain ⟨frequency, _, current, made, _⟩ := m
  cases hoff
  cases hobeyed
  have hmade := makeSound_eq (m := ⟨some hertz, false, current, made, []⟩) rfl hsamples
  unfold InForce at hnew
  unfold setFrequency
  rw [if_neg hnew]
  change (Reply.done _ []).andThen (Mixer.makeSound room · hertz) = _
  rw [Reply.done_andThen, hmade]
  rfl

theorem setFrequency_of_buzzing (hobeyed : m.answers = []) (hnew : ¬m.InForce hertz)
    (hon : m.buzzing = true) (hsound : m.sound = some sound)
    (hsamples : SquareWave.samples room hertz = .ok samples) :
    m.setFrequency room hertz =
      .done (m.retuned hertz)
        [.stop sound, .newSound m.made samples, .volume m.made level, .play m.made (-1)] := by
  obtain ⟨frequency, _, _, made, _⟩ := m
  cases hon
  cases hsound
  cases hobeyed
  have hmade := makeSound_eq (m := ⟨some hertz, true, some sound, made, []⟩) rfl hsamples
  unfold InForce at hnew
  unfold setFrequency
  rw [if_neg hnew]
  change (Reply.done (⟨some hertz, true, some sound, made, []⟩ : Mixer) [.stop sound]).andThen
    (Mixer.makeSound room · hertz) = _
  rw [Reply.done_andThen, hmade]
  rfl

/-! ## What requests keep -/

/-- A mixer whose host takes every call, and the calls that it made: sounds are numbered as they are
made, the last of them is the current one, and it plays just if the buzzer is on. -/
structure InTune (m : Mixer) (calls : List HostCall) : Prop extends Orderly calls where
  made : soundsMade calls = List.range m.made
  ready : 0 < m.made
  current : m.sound = some (m.made - 1)
  obeyed : m.answers = []
  plays : ∀ sound, playing calls sound = true ↔ m.buzzing = true ∧ m.sound = some sound

namespace InTune

theorem getLast?_soundsMade (h : InTune m calls) : (soundsMade calls).getLast? = m.sound := by
  rw [h.made, List.getLast?_range, h.current, if_neg (Nat.ne_of_gt h.ready)]

theorem of_silent (h : Silent calls) (hmade : soundsMade calls = List.range m.made)
    (hready : 0 < m.made) (hcurrent : m.sound = some (m.made - 1)) (hobeyed : m.answers = [])
    (hoff : m.buzzing = false) : InTune m calls where
  toOrderly := h.toOrderly
  made := hmade
  ready := hready
  current := hcurrent
  obeyed := hobeyed
  plays := by
    intro sound
    simp [h.silent, hoff]

theorem silent (h : InTune m calls) (hoff : m.buzzing = false) : Silent calls where
  toOrderly := h.toOrderly
  silent := by
    intro sound
    have hplays := h.plays sound
    simpa [hoff] using hplays

theorem stop (h : InTune m calls) (hon : m.buzzing = true) (hsound : m.sound = some sound) :
    Silent (calls ++ [.stop sound]) := by
  have honly : ∀ other, playing calls other = true → other = sound := by
    intro other hplaying
    have hcurrent := ((h.plays other).1 hplaying).2
    rw [hsound] at hcurrent
    exact (Option.some.inj hcurrent).symm
  have hplays : playing calls sound := (h.plays sound).2 ⟨hon, hsound⟩
  exact h.toOrderly.concat_silent hplays (playing_stop honly)

end InTune

/-- Out of silence a new sound is made, and played if the buzzer is on. -/
theorem inTune_retuned (h : Silent calls) (hmade : soundsMade calls = List.range m.made)
    (hobeyed : m.answers = []) (hertz : Number) (samples : Array UInt8) :
    InTune (m.retuned hertz)
      (calls ++ ([.newSound m.made samples, .volume m.made level] ++
        if m.buzzing then [.play m.made (-1)] else [])) := by
  have hnew : Silent (calls ++ [.newSound m.made samples, .volume m.made level]) := by
    rw [List.append_cons]
    exact (h.concat (.newSound m.made samples) trivial rfl).concat _ trivial rfl
  have hrange : soundsMade (calls ++ [.newSound m.made samples, .volume m.made level]) =
      List.range (m.made + 1) := by
    rw [soundsMade_append, hmade, List.range_succ]
    rfl
  rw [← List.append_assoc]
  cases hbuzzing : m.buzzing with
  | false =>
    rw [if_neg Bool.false_ne_true, List.append_nil]
    exact .of_silent hnew hrange (Nat.succ_pos _) rfl hobeyed hbuzzing
  | true =>
    have hlast : (List.range (m.made + 1)).getLast? = some m.made := by simp [List.getLast?_range]
    obtain ⟨horderly, hplays⟩ := hnew.play ((congrArg List.getLast? hrange).trans hlast)
    rw [if_pos rfl]
    refine
      { horderly with
        made := ?_, ready := Nat.succ_pos _, current := rfl, obeyed := hobeyed, plays := ?_ }
    · rw [soundsMade_append, hrange]
      exact List.append_nil _
    · intro sound
      rw [hplays]
      simp [retuned, hbuzzing]

theorem InTune.enable_other (h : InTune m calls) {on : Bool} (hon : on ≠ m.buzzing) :
    InTune { m with buzzing := on }
      (calls ++ [if on then .play (m.made - 1) (-1) else .stop (m.made - 1)]) := by
  cases on with
  | false =>
    have hsilent := h.stop (Bool.eq_true_of_not_eq_false hon.symm) h.current
    refine .of_silent hsilent ?_ h.ready h.current h.obeyed rfl
    rw [soundsMade_append, h.made]
    exact List.append_nil _
  | true =>
    have hsilent := h.silent (Bool.eq_false_of_not_eq_true hon.symm)
    obtain ⟨horderly, hplays⟩ := hsilent.play (h.getLast?_soundsMade.trans h.current)
    refine
      { horderly with
        made := ?_, ready := h.ready, current := h.current, obeyed := h.obeyed, plays := ?_ }
    · rw [soundsMade_append, h.made]
      exact List.append_nil _
    · intro sound
      rw [if_pos rfl, hplays, h.current]
      simp

theorem InTune.setFrequency (h : InTune m calls) (hnew : ¬m.InForce hertz)
    (hsamples : SquareWave.samples room hertz = .ok samples) :
    ∃ more, m.setFrequency room hertz = .done (m.retuned hertz) more ∧
      InTune (m.retuned hertz) (calls ++ more) := by
  cases hbuzzing : m.buzzing with
  | false =>
    have htuned := inTune_retuned (h.silent hbuzzing) h.made h.obeyed hertz samples
    rw [hbuzzing] at htuned
    exact ⟨_, setFrequency_of_silent h.obeyed hnew hbuzzing hsamples, htuned⟩
  | true =>
    have hmade : soundsMade (calls ++ [.stop (m.made - 1)]) = List.range m.made := by
      rw [soundsMade_append, h.made]
      exact List.append_nil _
    have htuned := inTune_retuned (h.stop hbuzzing h.current) hmade h.obeyed hertz samples
    rw [hbuzzing, List.append_assoc] at htuned
    exact ⟨_, setFrequency_of_buzzing h.obeyed hnew hbuzzing h.current hsamples, htuned⟩

/-- A request whose pitch has a wave is served, and leaves a mixer in tune. -/
theorem InTune.serve (h : InTune m calls) {r : Request} (hr : r.Playable room)
    (hpitch : m.InForce hertz) :
    ∃ n more, m.serve room r = .done n more ∧ InTune n (calls ++ more) ∧
      n.buzzing = r.on m.buzzing ∧ n.InForce (r.pitch hertz) := by
  cases r with
  | enable on =>
    by_cases hon : on = m.buzzing
    · subst hon
      refine ⟨m, [], enable_same m, ?_, rfl, hpitch⟩
      rwa [List.append_nil]
    · exact ⟨_, _, Mixer.enable_other h.obeyed h.current hon, h.enable_other hon, rfl, hpitch⟩
  | setFrequency asked =>
    by_cases hnew : m.InForce asked
    · refine ⟨m, [], setFrequency_of_inForce hnew, ?_, rfl, hnew⟩
      rwa [List.append_nil]
    · obtain ⟨samples, hsamples⟩ := Playable.exists_samples hr
      obtain ⟨more, hreply, htuned⟩ := h.setFrequency hnew hsamples
      exact ⟨_, more, hreply, htuned, rfl, inForce_retuned m hr⟩

theorem InTune.serveAll (h : InTune m calls) {requests : List Request}
    (hrequests : ∀ r ∈ requests, r.Playable room) (hpitch : m.InForce hertz) :
    ∃ n more, m.serveAll room requests = .done n more ∧ InTune n (calls ++ more) ∧
      n.buzzing = requests.foldl Request.on m.buzzing ∧
      n.InForce (requests.foldl Request.pitch hertz) := by
  induction requests generalizing m hertz calls with
  | nil =>
    refine ⟨m, [], rfl, ?_, rfl, hpitch⟩
    rwa [List.append_nil]
  | cons r rest ih =>
    obtain ⟨hr, hrest⟩ := List.forall_mem_cons.1 hrequests
    obtain ⟨n, more, hreply, htuned, hbuzzing, hpitch⟩ := h.serve hr hpitch
    obtain ⟨n', more', hreplies, htuned', hbuzzing', hpitch'⟩ := ih htuned hrest hpitch
    refine ⟨n', more ++ more', ?_, ?_, ?_, hpitch'⟩
    · rw [Mixer.serveAll, hreply, Reply.done_andThen, hreplies]
      rfl
    · rwa [List.append_assoc] at htuned'
    · rw [hbuzzing', hbuzzing, List.foldl_cons]

theorem playable_standardPitch_iff : Chip8.Playable room standardPitch ↔ 4410 ≤ room.bytes := by
  have hshape : SquareWave.shape standardPitch = .ok (4410, 44100.0 / 440.0) := by decide +kernel
  have hperiod : (SquareWave.quotient (44100.0 / 440.0)).isOk = true := by decide +kernel
  rw [playable_iff_of_shape hshape hperiod]
  omega

def mute : Mixer := ⟨none, false, none, 0, []⟩

theorem new_eq (hsamples : SquareWave.samples room standardPitch = .ok samples) :
    new room [] = .done (mute.retuned standardPitch)
      [.setupMixer 44100 8 1 512 0, .openMixer, .frequency standardPitch, .newSound 0 samples,
        .volume 0 level] := by
  have hset : mute.setFrequency room standardPitch =
      .done (mute.retuned standardPitch) [.newSound 0 samples, .volume 0 level] :=
    setFrequency_of_silent rfl Bool.false_ne_true rfl hsamples
  change (Reply.done mute _).andThen _ = _
  rw [Reply.done_andThen, hset]
  rfl

theorem inTune_new (hroom : Chip8.Playable room standardPitch) :
    ∃ m calls, new room [] = .done m calls ∧ InTune m calls ∧ m.buzzing = false ∧
      m.InForce standardPitch := by
  obtain ⟨samples, hsamples⟩ := hroom.exists_samples
  have hsetup : Silent [.setupMixer 44100 8 1 512 0, .openMixer] :=
    (silent_nil.concat (.setupMixer 44100 8 1 512 0) trivial rfl).concat .openMixer trivial rfl
  have hfirst : Silent [.setupMixer 44100 8 1 512 0, .openMixer, .frequency standardPitch] :=
    hsetup.concat (.frequency standardPitch) trivial rfl
  have htuned := inTune_retuned (m := mute) hfirst rfl rfl standardPitch samples
  exact ⟨_, _, new_eq hsamples, htuned, rfl, inForce_retuned mute hroom⟩

/-! ## Playback -/

/-- A mixer is opened if there is room for a wave of the usual pitch, on a host that takes every
call.  Whatever is asked of it then, as long as there is a wave of each pitch, is served.  Its
current sound is the one that was made last and plays just if the buzzer is on; no other sound
plays, not even in the middle of a request; only silent sounds are started and only playing ones
stopped.  No call is made for what is in force already, and a new pitch replaces a sound that
plays. -/
theorem current_sound_follows_buzzer (hroom : Chip8.Playable room standardPitch)
    {requests : List Request} (hrequests : ∀ r ∈ requests, r.Playable room) :
    ∃ m calls, session room requests = .done m calls ∧ InTune m calls ∧
      m.buzzing = requests.foldl Request.on false ∧
      m.InForce (requests.foldl Request.pitch standardPitch) ∧
      m.enable m.buzzing = .done m [] ∧
      (∀ hertz, m.InForce hertz → m.setFrequency room hertz = .done m []) ∧
      ∀ hertz samples, ¬m.InForce hertz → SquareWave.samples room hertz = .ok samples →
        m.buzzing = true →
        ∃ old, m.sound = some old ∧ old < m.made ∧
          m.setFrequency room hertz = .done (m.retuned hertz)
            [.stop old, .newSound m.made samples, .volume m.made level, .play m.made (-1)] := by
  obtain ⟨first, opening, hnew, htuned, hoff, hpitch⟩ := inTune_new hroom
  obtain ⟨m, calls, hserved, htuned, hbuzzing, hpitch⟩ := htuned.serveAll hrequests hpitch
  have hsession : session room requests = .done m (opening ++ calls) := by
    unfold session
    rw [hnew, Reply.done_andThen, hserved]
    rfl
  rw [hoff] at hbuzzing
  refine ⟨m, opening ++ calls, hsession, htuned, hbuzzing, hpitch, enable_same m, ?_, ?_⟩
  · exact fun _ hforce => setFrequency_of_inForce hforce
  · intro hertz samples hother hsamples hon
    have hold : m.made - 1 < m.made := Nat.sub_lt htuned.ready Nat.one_pos
    exact ⟨m.made - 1, htuned.current, hold,
      setFrequency_of_buzzing htuned.obeyed hother hon htuned.current hsamples⟩

/-- The pitch changes while the buzzer is on, and is asked for once more in another form. -/
theorem current_sound_of_octave :
    Chip8.Playable .gigabyte standardPitch ∧
    (∀ r ∈ [Request.enable true, .setFrequency (.whole 880), .setFrequency (.real 880.0)],
      r.Playable .gigabyte) ∧
    ∃ m calls,
      session .gigabyte [.enable true, .setFrequency (.whole 880), .setFrequency (.real 880.0)] =
        .done m calls ∧
      InTune m calls ∧ m.buzzing = true ∧ m.InForce (.real 880.0) ∧ ¬m.InForce (.real 440.0) := by
  have hroom : Chip8.Playable .gigabyte standardPitch := playable_standardPitch_iff.2 (by decide)
  have hrequests : ∀ r ∈ [Request.enable true, .setFrequency (.whole 880),
      .setFrequency (.real 880.0)], r.Playable .gigabyte := by decide +kernel
  have hother : ¬(session .gigabyte [.enable true, .setFrequency (.whole 880),
      .setFrequency (.real 880.0)]).state.InForce (.real 440.0) := by decide +kernel
  obtain ⟨m, calls, hsession, htuned, hbuzzing, hpitch, -⟩ :=
    current_sound_follows_buzzer hroom hrequests
  rw [hsession] at hother
  exact ⟨hroom, hrequests, m, calls, hsession, htuned, hbuzzing, hpitch, hother⟩

end Mixer

end Chip8
