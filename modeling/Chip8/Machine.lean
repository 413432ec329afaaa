import Chip8.CallStack
import Chip8.Display
import Chip8.Instruction
import Chip8.Keypad
import Chip8.RandomSource
import Chip8.Timers

/-!
# The machine

Everything a program can see: memory, registers, the call stack, the timers, the keypad and the
display; and how a machine starts, is reset and is given a program.

All addresses have twelve bits.  Glyphs for the sixteen hex digits lie at `glyphs`, programs are
loaded at `origin` and start there.
-/

namespace Chip8

inductive Fault
  | unknownOpcode (e : UnknownOpcode)
  | stack (e : CallStack.Error)
  deriving DecidableEq, Repr

def Fault.message : Fault → String
  | .unknownOpcode e => e.message
  | .stack e => e.message

structure Machine (ρ : Type) where
  memory : Memory
  stack : CallStack
  display : Display ρ
  keypad : Keypad
  timers : Timers
  random : RandomSource
  /-- Whether adding to the index sets the flag register on overflow. -/
  indexOverflow : Bool
  /-- Whether each instruction is traced. -/
  live : Bool
  /-- The registers; the last one also holds flags. -/
  v : Vector UInt8 16
  /-- The index: where sprites, digits and stored registers lie. -/
  index : Int
  /-- The address of the next instruction. -/
  pc : Int
  /-- The address of the instruction being executed. -/
  address : Int
  /-- The word being executed. -/
  word : Word
  /-- The keys that were down when the cycle began. -/
  keys : Vector Bool 16
  /-- Whether the program waits for a key. -/
  awaiting : Bool
  fault : Option Fault

namespace Machine

inductive Error
  | fault (f : Fault)
  /-- The machine was stopped by an earlier fault. -/
  | halted (f : Fault)
  | programTooLarge (size limit : Nat)
  | memory (e : Memory.Error)
  | screen (e : ScreenError)
  deriving DecidableEq, Repr

def Error.message : Error → String
  | .fault f => f.message
  | .halted f => "CPU halted after an earlier fault: " ++ f.message
  | .programTooLarge size limit =>
    "Program is " ++ toString size ++ " bytes, but only " ++ toString limit
      ++ " bytes are available"
  | .memory e => e.message
  | .screen _ => ""

def glyphs : Nat := 0x050

def glyphSize : Nat := 5

def origin : Nat := 0x200

def memorySize : Nat := 0x1000

def programLimit : Nat := memorySize - origin

def stackDepth : Nat := 16

/-- The glyphs of the hex digits, four pixels wide. -/
def font : Array UInt8 := #[
  0xF0, 0x90, 0x90, 0x90, 0xF0,
  0x20, 0x60, 0x20, 0x20, 0x70,
  0xF0, 0x10, 0xF0, 0x80, 0xF0,
  0xF0, 0x10, 0xF0, 0x10, 0xF0,
  0x90, 0x90, 0xF0, 0x10, 0x10,
  0xF0, 0x80, 0xF0, 0x10, 0xF0,
  0xF0, 0x80, 0xF0, 0x90, 0xF0,
  0xF0, 0x10, 0x20, 0x40, 0x40,
  0xF0, 0x90, 0xF0, 0x90, 0xF0,
  0xF0, 0x90, 0xF0, 0x10, 0xF0,
  0xF0, 0x90, 0xF0, 0x90, 0x90,
  0xE0, 0x90, 0xE0, 0x90, 0xE0,
  0xF0, 0x80, 0x80, 0x80, 0xF0,
  0xE0, 0x90, 0x90, 0x90, 0xE0,
  0xF0, 0x80, 0xF0, 0x80, 0xF0,
  0xF0, 0x80, 0xF0, 0x80, 0x80]

abbrev Result (ρ α : Type) := EStateM.Result Error (Machine ρ) α

variable {ρ : Type} [Screen ρ]

/-- Brings the whole machine to its first state; only the random source goes on. -/
def reset (m : Machine ρ) : Result ρ Unit :=
  let m := { m with memory := m.memory.clear }
  match m.memory.writeBlock glyphs font with
  | .error e => .error (.memory e) m
  | .ok memory =>
    let m :=
      { m with
        memory
        v := Vector.replicate 16 0
        index := 0
        pc := origin
        address := origin
        word := 0
        stack := m.stack.clear
        timers := Timers.stopped }
    match m.display.clear with
    | .error e display => .error (.screen e) { m with display }
    | .ok () display =>
      .ok ()
        { m with
          display
          keypad := Keypad.released
          keys := Keypad.released.down
          awaiting := false
          fault := none }

def new (memory : Memory) (depth : Int) (display : Display ρ) (random : RandomSource)
    (indexOverflow live : Bool) : Except Error (Machine ρ) :=
  let m : Machine ρ :=
    { memory, display, random, indexOverflow, live
      stack := CallStack.empty depth
      keypad := Keypad.released
      timers := Timers.stopped
      v := Vector.replicate 16 0
      index := 0
      pc := origin
      address := origin
      word := 0
      keys := Keypad.released.down
      awaiting := false
      fault := none }
  match m.reset with
  | .ok () m => .ok m
  | .error e _ => .error e

/-- Resets the machine and writes a program to memory.  A program that is too large changes
nothing. -/
def load (m : Machine ρ) (program : Array UInt8) : Result ρ Unit :=
  if programLimit < program.size then
    .error (.programTooLarge program.size programLimit) m
  else
    match m.reset with
    | .error e m => .error e m
    | .ok () m =>
      match m.memory.writeBlock origin program with
      | .error e => .error (.memory e) m
      | .ok memory => .ok () { m with memory }

omit [Screen ρ]

def tick (m : Machine ρ) : Machine ρ := { m with timers := m.timers.tick }

def setKey (m : Machine ρ) (key isDown : HostValue) : Except Keypad.Error (Machine ρ) :=
  (m.keypad.setKey key isDown).map fun keypad => { m with keypad }

/-- Writes a register by its number; numbers below zero count from the last. -/
def poke (m : Machine ρ) (register value : Int) : Except Memory.Error (Machine ρ) :=
  match Memory.cell? 16 register with
  | none => .error .noCell
  | some x =>
    if 0 ≤ value ∧ value < 256 then .ok { m with v := Nibble.update m.v x (lowByte value) }
    else .error .notByte

def sounding (m : Machine ρ) : Bool := m.timers.sounding

def skip (m : Machine ρ) : Machine ρ := { m with pc := wrapAddress (m.pc + 2) }

def rewind (m : Machine ρ) : Machine ρ := { m with pc := wrapAddress (m.pc - 2) }

def fetch (m : Machine ρ) : Except Memory.Error Word := do
  let high ← m.memory.read m.pc
  let low ← m.memory.read (wrapAddress (m.pc + 1))
  return 256 * high.toNat + low.toNat

end Machine

end Chip8
