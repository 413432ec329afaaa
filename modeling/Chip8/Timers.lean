import Chip8.Word

/-!
# Delay and sound timers

Two byte counters that go down to zero, one step a tick.  While the sound timer runs the buzzer
should sound.
-/

namespace Chip8

structure Timers where
  delay : UInt8
  sound : UInt8
  deriving DecidableEq, Repr

namespace Timers

def stopped : Timers := ⟨0, 0⟩

def countDown (n : UInt8) : UInt8 := if n = 0 then 0 else n - 1

def tick (t : Timers) : Timers := ⟨countDown t.delay, countDown t.sound⟩

def ticks (t : Timers) : Nat → Timers
  | 0 => t
  | n + 1 => t.tick.ticks n

def setDelay (t : Timers) (value : Int) : Timers := { t with delay := lowByte value }

def setSound (t : Timers) (value : Int) : Timers := { t with sound := lowByte value }

def sounding (t : Timers) : Bool := 0 < t.sound

theorem toNat_countDown (n : UInt8) : (countDown n).toNat = n.toNat - 1 := by
  unfold countDown
  split
  · subst_vars; rfl
  · rename_i h
    have h₀ : n.toNat ≠ 0 := fun h₀ => h (UInt8.toNat_inj.1 (by simpa using h₀))
    have h₁ : (1 : UInt8) ≤ n := by
      rw [UInt8.le_iff_toNat_le]
      have : (1 : UInt8).toNat = 1 := rfl
      omega
    rw [UInt8.toNat_sub_of_le n 1 h₁]
    rfl

end Timers

end Chip8
