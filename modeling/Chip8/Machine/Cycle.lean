import Chip8.Machine.Execute
import Chip8.Machine.Report

/-!
# Cycles

One cycle fetches a word, moves past it, decodes it and executes it.  A fault leaves the machine
pointing at the word that caused it, and the machine runs no further until it is reset.

A stretch is a number of cycles one after the other, cut short by the first error.
-/

namespace Chip8

/-- What a cycle leaves: the machine, the line that was traced, and the word that was decoded or
the error. -/
structure Turn (ρ : Type) where
  machine : Machine ρ
  printed : Option String
  outcome : Except Machine.Error Decoded

/-- The outcome without the fields of the word that the instruction does not read. -/
def Turn.result {ρ : Type} (turn : Turn ρ) : Except Machine.Error Instruction :=
  turn.outcome.map Decoded.instruction

theorem Turn.result_eq_error_iff {ρ : Type} {turn : Turn ρ} {e : Machine.Error} :
    turn.result = .error e ↔ turn.outcome = .error e := by
  unfold Turn.result
  cases turn.outcome <;> simp [Except.map]

/-- What a number of cycles leave: the machine, the lines that were traced, how many cycles went
through, and the error that cut them short, if one did. -/
structure Stretch (ρ : Type) where
  machine : Machine ρ
  printed : Array String
  cycles : Nat
  failure : Option Machine.Error

namespace Machine

variable {ρ : Type} [Screen ρ]

/-- Decodes and executes the word at hand.  An instruction is traced before it is executed. -/
def perform (m : Machine ρ) : Turn ρ :=
  match decode m.word (some m.address) with
  | .error e => ⟨m, none, .error (.fault (.unknownOpcode e))⟩
  | .ok decoded =>
    let printed := if m.live then some (m.describe decoded.instruction.mnemonic) else none
    match m.execute decoded.instruction with
    | .ok () m' => ⟨m', printed, .ok decoded⟩
    | .error e m' => ⟨m', printed, .error e⟩

/-- Takes up a fetched word, with the keys as they are, and moves past it. -/
def takeUp (m : Machine ρ) (word : Word) : Machine ρ :=
  { m with address := m.pc, word, keys := m.keypad.down, pc := wrapAddress (m.pc + 2) }

def halt (m : Machine ρ) (f : Fault) : Machine ρ := { m with pc := m.address, fault := some f }

def cycle (m : Machine ρ) : Turn ρ :=
  match m.fault with
  | some f => ⟨m, none, .error (.halted f)⟩
  | none =>
    match m.fetch with
    | .error e => ⟨{ m with address := m.pc }, none, .error (.memory e)⟩
    | .ok word =>
      let turn := (m.takeUp word).perform
      match turn.outcome with
      | .error (.fault f) => { turn with machine := turn.machine.halt f }
      | _ => turn

def runOn : (n : Nat) → Stretch ρ → Stretch ρ
  | 0, s => s
  | n + 1, ⟨m, printed, cycles, _⟩ =>
    let ⟨m, line, outcome⟩ := m.cycle
    let printed := printed ++ line.toList
    match outcome with
    | .error e => ⟨m, printed, cycles, some e⟩
    | .ok _ => runOn n ⟨m, printed, cycles + 1, none⟩

def run (m : Machine ρ) (n : Nat) : Stretch ρ := runOn n ⟨m, #[], 0, none⟩

end Machine

end Chip8
