import Chip8.Machine

/-!
# Reports on a machine

One line with the registers, the timers and the instruction at hand; and the report after a
crash, which adds the call stack and the reason.
-/

namespace Chip8.Machine

variable {ρ : Type}

def registerText (m : Machine ρ) : String := Text.hexBytes m.v.toList.reverse

def describe (m : Machine ρ) (instruction : String) : String :=
  "V: 0x" ++ m.registerText
    ++ " I: 0x" ++ Text.hex 3 m.index
    ++ " DT: 0x" ++ Text.hex 2 m.timers.delay.toNat
    ++ " ST: 0x" ++ Text.hex 2 m.timers.sound.toNat
    ++ " PC: 0x" ++ Text.hex 3 m.address
    ++ " OP: 0x" ++ Text.hex 4 m.word
    ++ " IN: " ++ instruction

def describeStack (m : Machine ρ) : String :=
  "Stack:" ++
    if m.stack.items.isEmpty then " (Empty)"
    else String.join (m.stack.toList.map fun item => " 0x" ++ Text.hex 3 item)

def describeFully (m : Machine ρ) (instruction : String) : String :=
  m.describe instruction ++ "\n" ++ m.describeStack

def crashReport (m : Machine ρ) (reason : String) : String :=
  "Emulation halted.\n\n" ++ m.describeFully "???" ++ "\n\n" ++ reason

end Chip8.Machine
