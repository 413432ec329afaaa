import Chip8.Proofs.Console
import Chip8.Proofs.Passes
import Chip8.Proofs.Screens
import Chip8.Session

/-!
# What a session releases

However a session ends, it shuts down what it has built, and nothing else: the speaker, then the
inputs, then the screen.  What stopped it is what it ends with, also after a crash report.
-/

namespace Chip8

section

variable {ρ : Type} [Screen ρ] {P : ρ → Prop}

theorem Screen.Tame.new (hP : Screen.Tame P) {room : Memory.Room} {screen : ρ} {width height : Int}
    {d : Display ρ} {calls : List HostCall}
    (hnew : Display.new room screen width height = .ok (d, calls)) :
    P d.screen ∧ Working calls := by
  unfold Display.new at hnew
  split at hnew
  · rename_i hpos
    split at hnew
    · cases hnew
    · dsimp only at hnew
      split at hnew
      · cases hnew
      · rename_i hresolution
        split at hnew
        · cases hnew
        · cases hnew
          constructor
          · exact hP.title _ _ (hP.resolution room screen hpos.1 hpos.2 hresolution)
          · exact (hP.working_resolution room screen width height).append (hP.working_title _ _)
  · cases hnew

end

/-! ## Runs -/

namespace Console

def Traced (ρ : Type) (line : String) : Prop :=
  ∃ (m : Machine ρ) (instruction : String), line = m.describe instruction

variable {ρ : Type}

/-- What a run keeps of a console on a screen that never refuses to draw. -/
structure Fair (P : ρ → Prop) (c : Console ρ) : Prop where
  screen : P c.machine.display.screen
  working : Working c.log.toList
  printed : ∃ traces, c.printed.toList = About.banner :: traces ∧ ∀ line ∈ traces, Traced ρ line

theorem Fair.log {P : ρ → Prop} {c : Console ρ} (h : Fair P c) {calls : List HostCall}
    (hcalls : Working calls) : Working (c.log ++ calls).toList := by
  rw [Array.toList_appendList]
  exact h.working.append hcalls

variable [Screen ρ]

end Console

namespace Session

/-! ## Building -/

variable {ρ : Type}

def keymapOf (settings : Settings) : Except Error Keymap := do
  let given ← need "keymap" settings.keymap
  (Keymap.ofValue (if given.truth then given else .text Keymap.standardText)).mapError .keymap

/-- The speaker that a host has for the plugins, if it takes the calls that build it. -/
def newSpeaker (host : Host) (plugins : Plugins) : Reply Mixer.Error Speaker :=
  Speaker.new host.room host.mixerAnswers plugins.silent

inductive Crash : Machine.Error → Prop
  | fault (f : Fault) : Crash (.fault f)
  | halted (f : Fault) : Crash (.halted f)
  | programTooLarge (size limit : Nat) : Crash (.programTooLarge size limit)

def settled (c : Console ρ) (readings : List Number) (s : Stage ρ) : Stage ρ :=
  { s with
    screen := c.machine.display.screen
    speaker := some c.speaker
    log := c.log
    printed := c.printed
    readings }

variable [Screen ρ] {P : ρ → Prop}

/-- Whether the inputs are reached on a screen, and can be built. -/
def inputsBuilt (settings : Settings) (host : Host) (screen : ρ) : Bool :=
  (Display.new host.room screen Display.standardWidth Display.standardHeight).isOk &&
    (keymapOf settings).isOk

/-- Whether the speaker is reached on a screen, and can be built. -/
def speakerBuilt (settings : Settings) (host : Host) (plugins : Plugins) (screen : ρ) : Bool :=
  inputsBuilt settings host screen && (newSpeaker host plugins).failure.isNone

/-- The plugins that are built on a screen, the last one first. -/
def built (settings : Settings) (host : Host) (plugins : Plugins) (screen : ρ) : List Plugin :=
  (if speakerBuilt settings host plugins screen then [.speaker] else []) ++
    (if inputsBuilt settings host screen then [.inputs] else []) ++ [.screen]

def resultOf : Clock.Ending Console.Error → Except Error Unit
  | .quit => .ok ()
  | .unread => .error .unread
  | .stopped stop => .error (.clock stop)

/-- What is true of a session after a run, when nothing has been shut down yet. -/
structure Reports (f : Clock.Finished Number (Console ρ) Console.Error) (result : Except Error Unit)
    (s : Stage ρ) : Prop where
  /-- A run prints nothing but traces. -/
  traced : ∃ traces, f.state.rig.printed.toList = About.banner :: traces ∧
    ∀ line ∈ traces, Console.Traced ρ line
  /-- Without a crash nothing follows the run. -/
  quiet : (∀ e, f.ending = .stopped (.failed (.machine e)) → ¬Crash e) →
    result = resultOf f.ending ∧ s.printed = f.state.rig.printed ∧ s.log = f.state.rig.log
  /-- After a crash the display is refreshed once more, and the report is printed. -/
  crashed : ∀ e, f.ending = .stopped (.failed (.machine e)) → Crash e →
    s.log = f.state.rig.log ++ f.state.rig.machine.display.refresh.calls ∧
    (f.state.rig.machine.display.refresh.failure = none →
      result = resultOf f.ending ∧
        s.printed = f.state.rig.printed ++ lines (f.state.rig.machine.crashReport e.message)) ∧
    -- Nothing can get between the refresh and the report but a refusal of the host.
    ∀ failure, f.state.rig.machine.display.refresh.failure = some failure →
      (∃ reason, failure = .refused reason) ∧
        result = .error (.clock (.failed (.screen failure))) ∧ s.printed = f.state.rig.printed

/-- What becomes of a session that opened a screen.  The stage is the one it has reached when it
starts to shut down. -/
structure Releases (settings : Settings) (host : Host) (plugins : Plugins) (indexOverflow : Bool)
    (program : Array UInt8) (screen : ρ) (calls : List HostCall) (s : Stage ρ) (o : Outcome) :
    Prop where
  /-- Until then no plugin was asked to shut down. -/
  working : Working s.log.toList
  /-- Whatever was built is shut down then, once, and nothing else is asked or printed. -/
  closing : ∃ closing, o.log.toList = s.log.toList ++ closing ∧
    asked closing = (built settings host plugins screen).map .shutdown
  silent : o.printed = s.printed
  unbuilt : ∀ e s',
    assemble settings host plugins indexOverflow program (opened host screen calls) = .error e s' →
    o.result = .error e ∧ s.printed = #[About.banner]
  ran : ∀ d s',
    assemble settings host plugins indexOverflow program (opened host screen calls) = .ok d s' →
    Reports (Clock.run Console.rig s'.readings d) o.result s

section

variable {f : Clock.Finished Number (Console ρ) Console.Error} {e : Machine.Error}

end

def keyboard : Keymap :=
  ⟨#v[120, 49, 50, 51, 113, 119, 101, 97, 115, 100, 122, 99, 52, 114, 102, 118]⟩

def driven (host : Host) (program : Array UInt8) (display : Display Grid)
    (calls : List HostCall) : Driven Number (Console Grid) where
  clock := Clock.new (some (.real (1.0 / 700.0))) (.real 0.0)
  rig :=
    { machine := (Machine.firstState Machine.stackDepth display host.random false false).loaded
        program
      inputs := ⟨keyboard, false⟩
      speaker := .silent
      batches := host.batches
      log := (#[] : Array HostCall) ++ calls ++ [HostCall.frequency Mixer.standardPitch]
      printed := #[About.banner] }

def blank : Display Grid :=
  Display.built .null Display.standardWidth Display.standardHeight (by decide)

end Session

end Chip8
