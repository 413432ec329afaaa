import Chip8.HostValue
import Chip8.Word

/-!
# The hex keypad

Which of the sixteen keys are down, and the last key that went from up to down since the latch
was cleared.
-/

namespace Chip8

structure Keypad where
  down : Vector Bool 16
  latched : Option Nibble
  deriving DecidableEq

/-- A key that the keypad does not have, and how it is written. -/
structure InvalidKey where
  key : HostValue
  text : String
  written : key.literal? = some text

def InvalidKey.message (e : InvalidKey) : String :=
  "Key " ++ e.text ++ " is out of range (0x0 - 0xF)"

namespace Keypad

inductive Error
  | invalidKey (e : InvalidKey)
  /-- A key that the keypad does not have cannot be written. -/
  | unwritable

def refusal (key : HostValue) : Error :=
  if h : key.literal?.isSome = true then
    .invalidKey ⟨key, key.literal?.get h, (Option.some_get h).symm⟩
  else .unwritable

def released : Keypad := ⟨Vector.replicate 16 false, none⟩

/-- Forgets earlier presses, so that only later ones count. -/
def clearLatch (k : Keypad) : Keypad := { k with latched := none }

/-- Presses or releases a key; a press of a key that was up is latched. -/
def set (k : Keypad) (key : Nibble) (isDown : Bool) : Keypad where
  down := Nibble.update k.down key isDown
  latched := if isDown && !k.down.get key then some key else k.latched

/-- The key that a value names: an integer from 0 to 15, and nothing else. -/
def key? : HostValue → Option Nibble
  | .int n => if h : 0 ≤ n ∧ n < 16 then some ⟨n.toNat, by omega⟩ else none
  | _ => none

def setKey (k : Keypad) (key isDown : HostValue) : Except Error Keypad :=
  match key? key with
  | some n => .ok (k.set n isDown.truth)
  | none => .error (refusal key)

@[simp] theorem latched_clearLatch (k : Keypad) : k.clearLatch.latched = none := rfl

@[simp] theorem down_clearLatch (k : Keypad) : k.clearLatch.down = k.down := rfl

end Keypad

end Chip8
