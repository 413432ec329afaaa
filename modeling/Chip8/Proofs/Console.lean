import Chip8.Console
import Chip8.Proofs.Invariant
import Chip8.Proofs.Journal

/-!
# What a console leaves

Each request to a console touches its own parts of it, and does so also when it fails.
-/

namespace Chip8.Console

section

variable {ρ : Type}

theorem left_buzz (on : Bool) (c : Console ρ) :
    left (buzz on c) =
      { c with
        speaker := (c.speaker.enable on).state
        log := c.log ++ (c.speaker.enable on).calls } := by
  unfold buzz
  dsimp only
  cases (c.speaker.enable on).failure <;> rfl

def heard (c : Console ρ) : List HostEvent :=
  match c.batches.headD (.ok []) with
  | .ok events => events
  | .error _ => []

theorem log_append (log : Array HostCall) (calls more : List HostCall) :
    log ++ calls ++ more = log ++ (calls ++ more) := by
  apply Array.toList_inj.1
  simp only [Array.toList_appendList, List.append_assoc]

theorem left_take (c : Console ρ) (events : List HostEvent) :
    left (c.take events) =
      { c with
        machine :=
          { c.machine with keypad := (c.inputs.handleAll c.machine.keypad events).keypad }
        log := c.log ++ (c.inputs.handleAll c.machine.keypad events).calls } := by
  unfold take
  dsimp only
  cases (c.inputs.handleAll c.machine.keypad events).failure <;> rfl

theorem left_poll (c : Console ρ) :
    left (poll c) =
      { c with
        machine :=
          { c.machine with keypad := (c.inputs.handleAll c.machine.keypad c.heard).keypad }
        batches := c.batches.tail
        log := c.log ++ (.poll :: (c.inputs.handleAll c.machine.keypad c.heard).calls) } := by
  unfold poll heard
  dsimp only
  cases c.batches.headD (.ok []) with
  | ok events =>
    dsimp only
    rw [left_take]
    simp only [note, log_append]
    rfl
  | error reason => rfl

theorem left_showing (c : Console ρ) (r : Reply ScreenError (Display ρ)) :
    left (c.showing r) =
      { c with
        machine := { c.machine with display := r.state }
        log := c.log ++ r.calls } := by
  unfold showing
  dsimp only
  cases r.failure <;> rfl

end

variable {ρ : Type} [Screen ρ]

theorem left_cycle (c : Console ρ) :
    left (cycle c) =
      { c with
        machine := c.machine.cycle.machine
        printed := c.printed ++ c.machine.cycle.printed.toList } := by
  unfold cycle
  dsimp only
  cases c.machine.cycle.outcome <;> rfl

theorem rig_keeps {I : Console ρ → Prop}
    (htick : ∀ c, I c → I { c with machine := c.machine.tick })
    (hcycle : ∀ c, I c → I { c with
      machine := c.machine.cycle.machine
      printed := c.printed ++ c.machine.cycle.printed.toList })
    (hbuzz : ∀ c on, I c → I { c with
      speaker := (c.speaker.enable on).state
      log := c.log ++ (c.speaker.enable on).calls })
    (hpoll : ∀ c, I c → I { c with
      machine := { c.machine with
        keypad := (c.inputs.handleAll c.machine.keypad c.heard).keypad }
      batches := c.batches.tail
      log := c.log ++ (.poll :: (c.inputs.handleAll c.machine.keypad c.heard).calls) })
    (hrefresh : ∀ c, I c → I { c with
      machine := { c.machine with display := c.machine.display.refresh.state }
      log := c.log ++ c.machine.display.refresh.calls })
    (hreport : ∀ c (frames cycles : Nat), I c → I { c with
      machine := { c.machine with display := (c.machine.display.report frames cycles).state }
      log := c.log ++ (c.machine.display.report frames cycles).calls }) :
    (rig : Rig Error (Console ρ)).Keeps I where
  tick := htick
  sounding c hc := hc
  cycle c hc := by
    change I (left (cycle c))
    rw [left_cycle]
    exact hcycle c hc
  buzz on c hc := by
    change I (left (buzz on c))
    rw [left_buzz]
    exact hbuzz c on hc
  poll c hc := by
    change I (left (poll c))
    rw [left_poll]
    exact hpoll c hc
  refresh c hc := by
    change I (left (c.showing c.machine.display.refresh))
    rw [left_showing]
    exact hrefresh c hc
  report frames cycles c hc := by
    change I (left (c.showing (c.machine.display.report frames cycles)))
    rw [left_showing]
    exact hreport c frames cycles hc

theorem tick_false_not_mem_deeds {τ : Type} [TimeLine τ] (d : Driven τ (Console ρ))
    (calls : List (Clock.Call τ)) : Deed.tick false ∉ Clock.deeds rig d calls :=
  Clock.tick_false_not_mem_deeds (fun _ => ⟨_, rfl⟩) d calls

/-- A silent console with a usual machine, whose sound timer runs. -/
def humming : Console Grid where
  machine := { Machine.usual with timers := ⟨0, 2⟩ }
  inputs := ⟨⟨Vector.replicate 16 0⟩, false⟩
  speaker := .silent
  batches := []
  log := #[]
  printed := #[]

/-- A silent console whose machine jumps to where it is, again and again. -/
def jumping : Console Grid := { humming with machine := Machine.usual.loaded #[0x12, 0x00] }

end Chip8.Console
