import Chip8.Inputs
import Chip8.Speaker

/-!
# What the plugins are asked

Some calls are requests to a plugin: to do some work, or to shut down.  The plugins themselves never
ask one of them to shut down while they work.
-/

namespace Chip8

inductive Plugin
  | screen
  | inputs
  | speaker
  deriving DecidableEq, Repr

inductive Asked
  | work (p : Plugin)
  | shutdown (p : Plugin)
  deriving DecidableEq, Repr

def HostCall.asked? : HostCall → Option Asked
  | .title _ => some (.work .screen)
  | .refresh _ => some (.work .screen)
  | .poll => some (.work .inputs)
  | .key _ => some (.work .inputs)
  | .frequency _ => some (.work .speaker)
  | .buzzer _ => some (.work .speaker)
  | .audioShutdown => some (.shutdown .speaker)
  | .inputsShutdown => some (.shutdown .inputs)
  | .screenShutdown => some (.shutdown .screen)
  | _ => none

def asked (calls : List HostCall) : List Asked := calls.filterMap HostCall.asked?

/-- None of some calls asks a plugin to shut down. -/
def Working (calls : List HostCall) : Prop := ∀ call ∈ calls, ∀ p, call.asked? ≠ some (.shutdown p)

namespace Working

variable {calls more : List HostCall}

theorem nil : Working [] := nofun

theorem cons {call : HostCall} (hcall : ∀ p, call.asked? ≠ some (.shutdown p))
    (h : Working calls) : Working (call :: calls) := List.forall_mem_cons.2 ⟨hcall, h⟩

theorem append (h : Working calls) (hmore : Working more) : Working (calls ++ more) :=
  List.forall_mem_append.2 ⟨h, hmore⟩

end Working

/-! ## The speaker -/

theorem Reply.working_andThen {ε σ : Type} {r : Reply ε σ} {next : σ → Reply ε σ}
    (h : Working r.calls) (hnext : ∀ s, Working (next s).calls) :
    Working (r.andThen next).calls := by
  unfold Reply.andThen
  split
  · exact h
  · exact h.append (hnext _)

theorem HostCall.calls_ask_prefix {ε : Type} (refused : Reason → ε) (calls : List HostCall)
    (answers : Answers) : (ask refused calls answers).calls <+: calls := by
  induction calls generalizing answers with
  | nil => exact List.prefix_rfl
  | cons call rest ih =>
    rcases answers with _ | ⟨_ | reason, answers⟩
    · exact List.prefix_rfl
    · exact List.cons_prefix_cons.2 ⟨rfl, ih answers⟩
    · exact List.cons_prefix_cons.2 ⟨rfl, List.nil_prefix⟩

theorem working_ask {ε : Type} {refused : Reason → ε} {calls : List HostCall} {answers : Answers}
    (h : Working calls) : Working (HostCall.ask refused calls answers).calls :=
  fun call hcall => h call ((HostCall.calls_ask_prefix refused calls answers).subset hcall)

namespace Mixer

theorem working_request {m : Mixer} {calls : List HostCall} (h : Working calls) :
    Working (m.request calls).calls := working_ask h

end Mixer

namespace Speaker

theorem working_request {s : Speaker} {note : HostCall} {act : Mixer → Reply Mixer.Error Mixer}
    (hnote : ∀ p, note.asked? ≠ some (.shutdown p)) (hact : ∀ m, Working (act m).calls) :
    Working (s.request note act).calls := by
  cases s with
  | silent => exact .cons hnote .nil
  | mixer m => exact .cons hnote (hact m)

theorem asked_shutdown (s : Speaker) : asked s.shutdown = [.shutdown .speaker] := by
  cases s with
  | silent => rfl
  | mixer m =>
    have hstops : asked m.shutdown = [] := by
      unfold Mixer.shutdown
      cases m.sound <;> rfl
    change Asked.shutdown .speaker :: asked m.shutdown = _
    rw [hstops]

end Speaker

/-! ## The inputs -/

namespace Inputs

end Inputs

end Chip8
