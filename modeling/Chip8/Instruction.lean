import Chip8.Text.Hex
import Chip8.Word

/-!
# Instructions

The thirty-four instructions, each with the operands that its mnemonic shows; the decoder from
words, the assembler back to words, and the mnemonic text.

The leading nibble of a word picks a family.  Most families hold one instruction; families 5, 8
and 9 are told apart by the last nibble, E and F by the low byte, and family 0 by the whole word.
-/

namespace Chip8

inductive Instruction
  | clear
  | ret
  | jump (target : Address)
  | call (target : Address)
  | skipEqByte (x : Nibble) (byte : UInt8)
  | skipNeByte (x : Nibble) (byte : UInt8)
  | skipEq (x y : Nibble)
  | loadByte (x : Nibble) (byte : UInt8)
  | addByte (x : Nibble) (byte : UInt8)
  | load (x y : Nibble)
  | or (x y : Nibble)
  | and (x y : Nibble)
  | xor (x y : Nibble)
  | add (x y : Nibble)
  | sub (x y : Nibble)
  | shiftRight (x : Nibble)
  | subFrom (x y : Nibble)
  | shiftLeft (x : Nibble)
  | skipNe (x y : Nibble)
  | loadIndex (target : Address)
  | jumpOffset (target : Address)
  | random (x : Nibble) (mask : UInt8)
  | draw (x y rows : Nibble)
  | skipPressed (x : Nibble)
  | skipReleased (x : Nibble)
  | readDelay (x : Nibble)
  | awaitKey (x : Nibble)
  | setDelay (x : Nibble)
  | setSound (x : Nibble)
  | addIndex (x : Nibble)
  | loadGlyph (x : Nibble)
  | storeDecimal (x : Nibble)
  | storeRegisters (x : Nibble)
  | loadRegisters (x : Nibble)
  deriving DecidableEq, Repr

namespace Instruction

/-- Family 8: arithmetic between two registers, by the last nibble. -/
def ofArithmetic? (x y n : Nibble) : Option Instruction :=
  match (n : Nat) with
  | 0x0 => some (.load x y)
  | 0x1 => some (.or x y)
  | 0x2 => some (.and x y)
  | 0x3 => some (.xor x y)
  | 0x4 => some (.add x y)
  | 0x5 => some (.sub x y)
  | 0x6 => some (.shiftRight x)
  | 0x7 => some (.subFrom x y)
  | 0xE => some (.shiftLeft x)
  | _ => none

/-- Family F: timers, keys, the index and transfers, by the low byte. -/
def ofMiscellany? (x : Nibble) (nn : UInt8) : Option Instruction :=
  match nn.toNat with
  | 0x07 => some (.readDelay x)
  | 0x0A => some (.awaitKey x)
  | 0x15 => some (.setDelay x)
  | 0x18 => some (.setSound x)
  | 0x1E => some (.addIndex x)
  | 0x29 => some (.loadGlyph x)
  | 0x33 => some (.storeDecimal x)
  | 0x55 => some (.storeRegisters x)
  | 0x65 => some (.loadRegisters x)
  | _ => none

def ofWord? (w : Word) : Option Instruction :=
  match (w.family : Nat) with
  | 0x0 => if w = 0x00E0 then some .clear else if w = 0x00EE then some .ret else none
  | 0x1 => some (.jump w.nnn)
  | 0x2 => some (.call w.nnn)
  | 0x3 => some (.skipEqByte w.x w.nn)
  | 0x4 => some (.skipNeByte w.x w.nn)
  | 0x5 => if w.n = 0 then some (.skipEq w.x w.y) else none
  | 0x6 => some (.loadByte w.x w.nn)
  | 0x7 => some (.addByte w.x w.nn)
  | 0x8 => ofArithmetic? w.x w.y w.n
  | 0x9 => if w.n = 0 then some (.skipNe w.x w.y) else none
  | 0xA => some (.loadIndex w.nnn)
  | 0xB => some (.jumpOffset w.nnn)
  | 0xC => some (.random w.x w.nn)
  | 0xD => some (.draw w.x w.y w.n)
  | 0xE =>
    if w.nn = 0x9E then some (.skipPressed w.x)
    else if w.nn = 0xA1 then some (.skipReleased w.x)
    else none
  | _ => ofMiscellany? w.x w.nn

def pairWord (family x y n : Nat) : Nat := 4096 * family + 256 * x + 16 * y + n

def byteWord (family x nn : Nat) : Nat := 4096 * family + 256 * x + nn

/-- The word of an instruction.  The shifts leave their third nibble open: it takes `spare`. -/
def encode (spare : Nibble) : Instruction → Nat
  | .clear => 0x00E0
  | .ret => 0x00EE
  | .jump a => 0x1000 + a
  | .call a => 0x2000 + a
  | .skipEqByte x b => byteWord 0x3 x b.toNat
  | .skipNeByte x b => byteWord 0x4 x b.toNat
  | .skipEq x y => pairWord 0x5 x y 0x0
  | .loadByte x b => byteWord 0x6 x b.toNat
  | .addByte x b => byteWord 0x7 x b.toNat
  | .load x y => pairWord 0x8 x y 0x0
  | .or x y => pairWord 0x8 x y 0x1
  | .and x y => pairWord 0x8 x y 0x2
  | .xor x y => pairWord 0x8 x y 0x3
  | .add x y => pairWord 0x8 x y 0x4
  | .sub x y => pairWord 0x8 x y 0x5
  | .shiftRight x => pairWord 0x8 x spare 0x6
  | .subFrom x y => pairWord 0x8 x y 0x7
  | .shiftLeft x => pairWord 0x8 x spare 0xE
  | .skipNe x y => pairWord 0x9 x y 0x0
  | .loadIndex a => 0xA000 + a
  | .jumpOffset a => 0xB000 + a
  | .random x b => byteWord 0xC x b.toNat
  | .draw x y n => pairWord 0xD x y n
  | .skipPressed x => byteWord 0xE x 0x9E
  | .skipReleased x => byteWord 0xE x 0xA1
  | .readDelay x => byteWord 0xF x 0x07
  | .awaitKey x => byteWord 0xF x 0x0A
  | .setDelay x => byteWord 0xF x 0x15
  | .setSound x => byteWord 0xF x 0x18
  | .addIndex x => byteWord 0xF x 0x1E
  | .loadGlyph x => byteWord 0xF x 0x29
  | .storeDecimal x => byteWord 0xF x 0x33
  | .storeRegisters x => byteWord 0xF x 0x55
  | .loadRegisters x => byteWord 0xF x 0x65

def register (x : Nibble) : String := "V" ++ Text.hex 1 x

def byteOperand (b : UInt8) : String := "0x" ++ Text.hex 2 b.toNat

def addressOperand (a : Address) : String := "0x" ++ Text.hex 3 a

def registers (x y : Nibble) : String := register x ++ ", " ++ register y

def mnemonic : Instruction → String
  | .clear => "CLS"
  | .ret => "RET"
  | .jump a => "JP " ++ addressOperand a
  | .call a => "CALL " ++ addressOperand a
  | .skipEqByte x b => "SE " ++ register x ++ ", " ++ byteOperand b
  | .skipNeByte x b => "SNE " ++ register x ++ ", " ++ byteOperand b
  | .skipEq x y => "SE " ++ registers x y
  | .loadByte x b => "LD " ++ register x ++ ", " ++ byteOperand b
  | .addByte x b => "ADD " ++ register x ++ ", " ++ byteOperand b
  | .load x y => "LD " ++ registers x y
  | .or x y => "OR " ++ registers x y
  | .and x y => "AND " ++ registers x y
  | .xor x y => "XOR " ++ registers x y
  | .add x y => "ADD " ++ registers x y
  | .sub x y => "SUB " ++ registers x y
  | .shiftRight x => "SHR " ++ register x
  | .subFrom x y => "SUBN " ++ registers x y
  | .shiftLeft x => "SHL " ++ register x
  | .skipNe x y => "SNE " ++ registers x y
  | .loadIndex a => "LD I, " ++ addressOperand a
  | .jumpOffset a => "JP V0, " ++ addressOperand a
  | .random x b => "RND " ++ register x ++ ", " ++ byteOperand b
  | .draw x y n => "DRW " ++ registers x y ++ ", 0x" ++ Text.hex 1 n
  | .skipPressed x => "SKP " ++ register x
  | .skipReleased x => "SKNP " ++ register x
  | .readDelay x => "LD " ++ register x ++ ", DT"
  | .awaitKey x => "LD " ++ register x ++ ", K"
  | .setDelay x => "LD DT, " ++ register x
  | .setSound x => "LD ST, " ++ register x
  | .addIndex x => "ADD I, " ++ register x
  | .loadGlyph x => "LD F, " ++ register x
  | .storeDecimal x => "LD B, " ++ register x
  | .storeRegisters x => "LD [I], " ++ register x
  | .loadRegisters x => "LD " ++ register x ++ ", [I]"

end Instruction

structure UnknownOpcode where
  opcode : Word
  address : Option Int
  deriving DecidableEq, Repr

namespace UnknownOpcode

def message (e : UnknownOpcode) : String :=
  match e.address with
  | none => "Opcode 0x" ++ Text.hex 4 e.opcode ++ " is not a CHIP-8 instruction"
  | some a =>
    "Opcode 0x" ++ Text.hex 4 e.opcode ++ " at address 0x" ++ Text.hex 3 a
      ++ " is not a CHIP-8 instruction"

end UnknownOpcode

/-- A word as it is decoded: the instruction, and the word with all of its fields, those that the
instruction leaves unread included. -/
structure Decoded where
  instruction : Instruction
  opcode : Word
  x : Nibble
  y : Nibble
  n : Nibble
  nn : UInt8
  nnn : Address
  deriving DecidableEq, Repr

def Decoded.of (w : Word) (instruction : Instruction) : Decoded where
  instruction
  opcode := w
  x := w.x
  y := w.y
  n := w.n
  nn := w.nn
  nnn := w.nnn

/-- Decodes a word.  The address is only kept to report where a bad word came from. -/
def decode (w : Word) (address : Option Int) : Except UnknownOpcode Decoded :=
  match Instruction.ofWord? w with
  | some i => .ok (.of w i)
  | none => .error ⟨w, address⟩

variable {w : Word} {address : Option Int}

theorem decode_of_ofWord? {i : Instruction} (hi : Instruction.ofWord? w = some i) :
    decode w address = .ok (.of w i) := by
  unfold decode
  rw [hi]

theorem decode_eq_ok_iff {d : Decoded} :
    decode w address = .ok d ↔ ∃ i, Instruction.ofWord? w = some i ∧ d = .of w i := by
  unfold decode
  cases Instruction.ofWord? w <;> simp [eq_comm]

theorem decode_eq_error_iff {e : UnknownOpcode} :
    decode w address = .error e ↔ Instruction.ofWord? w = none ∧ e = ⟨w, address⟩ := by
  unfold decode
  cases Instruction.ofWord? w <;> simp [eq_comm]

end Chip8
