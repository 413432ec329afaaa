import Chip8.Machine

/-!
# Executing instructions

What each instruction does to a machine whose next address is already past it.  A flag is always
written after the register of a result, so that it wins where both are the same register.
-/

namespace Chip8

/-- The places of the lit pixels of a sprite, row by row: a byte a row, the highest bit first. -/
def spritePlaces (x y : Int) : List UInt8 → List (Int × Int)
  | [] => []
  | bits :: rest =>
    ((List.range 8).filter fun c => bits.toNat.testBit (7 - c)).map (fun (c : Nat) => (x + c, y))
      ++ spritePlaces x (y + 1) rest

namespace Machine

variable {ρ : Type}

def get (m : Machine ρ) (x : Nibble) : UInt8 := m.v.get x

def set (m : Machine ρ) (x : Nibble) (value : UInt8) : Machine ρ :=
  { m with v := Nibble.update m.v x value }

def setEach (m : Machine ρ) : List (Nibble × UInt8) → Machine ρ
  | [] => m
  | (x, value) :: rest => (m.set x value).setEach rest

def flagRegister : Nibble := Nibble.ofNat 0xF

def flag (m : Machine ρ) (on : Bool) : Machine ρ := m.set flagRegister (if on then 1 else 0)

def skipIf (m : Machine ρ) (condition : Bool) : Machine ρ := if condition then m.skip else m

def registersTo (x : Nibble) : List Nibble := (List.finRange 16).take (x + 1)

def addresses (m : Machine ρ) (n : Nat) : List Int :=
  (List.range n).map fun (k : Nat) => wrapAddress (m.index + k)

/-- The sum goes to `x`; the flag tells a carry. -/
def addTo (m : Machine ρ) (x y : Nibble) : Machine ρ :=
  (m.set x (m.get x + m.get y)).flag (decide (255 < (m.get x).toNat + (m.get y).toNat))

/-- A difference goes to `x`; the flag tells that nothing was borrowed. -/
def subtractTo (m : Machine ρ) (x : Nibble) (a b : UInt8) : Machine ρ :=
  (m.set x (a - b)).flag (decide (b ≤ a))

/-- Waits for a key pressed from now on: runs this instruction again until one is latched. -/
def awaitKey (m : Machine ρ) (x : Nibble) : Machine ρ :=
  if m.awaiting then
    match m.keypad.latched with
    | none => m.rewind
    | some key => { m.set x (UInt8.ofNat key) with awaiting := false }
  else { m with keypad := m.keypad.clearLatch, awaiting := true }.rewind

def addIndex (m : Machine ρ) (x : Nibble) : Machine ρ :=
  let sum := m.index + (m.get x).toNat
  let m' := { m with index := wrapAddress sum }
  if m.indexOverflow then m'.flag (decide (4095 < sum)) else m'

/-- Writes bytes from the index on, up to the first that fails. -/
def store (m : Machine ρ) (bytes : List UInt8) : Result ρ Unit :=
  let written := m.memory.writeEach ((m.addresses bytes.length).zip bytes)
  let m' := { m with memory := written.1 }
  match written.2 with
  | none => .ok () m'
  | some e => .error (.memory e) m'

def decimalDigits (b : UInt8) : List UInt8 := [b / 100, b / 10 % 10, b % 10]

/-- Reads registers from the index on, up to the first byte that fails. -/
def loadTo (m : Machine ρ) (x : Nibble) : Result ρ Unit :=
  let fetched := m.memory.readEach (m.addresses (x + 1))
  let m' := m.setEach ((registersTo x).zip fetched.1)
  match fetched.2 with
  | none => .ok () m'
  | some e => .error (.memory e) m'

variable [Screen ρ]

def clearDisplay (m : Machine ρ) : Result ρ Unit :=
  match m.display.clear with
  | .ok () display => .ok () { m with display }
  | .error e display => .error (.screen e) { m with display }

/-- Flips the pixels of a sprite; the flag tells whether one that was lit went out.  A sprite
that memory does not hold in full is drawn as far as it goes. -/
def draw (m : Machine ρ) (x y rows : Nibble) : Result ρ Unit :=
  let sprite := m.memory.readEach (m.addresses rows)
  match m.display.flipEach (spritePlaces (m.get x).toNat (m.get y).toNat sprite.1) with
  | .error e display => .error (.screen e) { m with display }
  | .ok collided display =>
    match sprite.2 with
    | some e => .error (.memory e) { m with display }
    | none => .ok () ({ m with display }.flag collided)

def execute (m : Machine ρ) : Instruction → Result ρ Unit
  | .clear => m.clearDisplay
  | .ret =>
    match m.stack.pop with
    | .error e => .error (.fault (.stack e)) m
    | .ok (pc, stack) => .ok () { m with pc, stack }
  | .jump a => .ok () { m with pc := a }
  | .call a =>
    match m.stack.push m.pc with
    | .error e => .error (.fault (.stack e)) m
    | .ok stack => .ok () { m with pc := a, stack }
  | .skipEqByte x b => .ok () (m.skipIf (m.get x == b))
  | .skipNeByte x b => .ok () (m.skipIf (m.get x != b))
  | .skipEq x y => .ok () (m.skipIf (m.get x == m.get y))
  | .loadByte x b => .ok () (m.set x b)
  | .addByte x b => .ok () (m.set x (m.get x + b))
  | .load x y => .ok () (m.set x (m.get y))
  | .or x y => .ok () (m.set x (m.get x ||| m.get y))
  | .and x y => .ok () (m.set x (m.get x &&& m.get y))
  | .xor x y => .ok () (m.set x (m.get x ^^^ m.get y))
  | .add x y => .ok () (m.addTo x y)
  | .sub x y => .ok () (m.subtractTo x (m.get x) (m.get y))
  | .shiftRight x => .ok () ((m.set x (m.get x >>> 1)).flag (m.get x % 2 == 1))
  | .subFrom x y => .ok () (m.subtractTo x (m.get y) (m.get x))
  | .shiftLeft x => .ok () ((m.set x (m.get x <<< 1)).flag (decide (128 ≤ m.get x)))
  | .skipNe x y => .ok () (m.skipIf (m.get x != m.get y))
  | .loadIndex a => .ok () { m with index := a }
  | .jumpOffset a =>
    .ok () { m with pc := wrapAddress (((m.get (Nibble.ofNat 0)).toNat : Int) + a) }
  | .random x mask =>
    let (value, random) := m.random.draw
    .ok () ({ m with random }.set x (lowByte value &&& mask))
  | .draw x y rows => m.draw x y rows
  | .skipPressed x => .ok () (m.skipIf (m.keys.get (Nibble.ofNat (m.get x).toNat)))
  | .skipReleased x => .ok () (m.skipIf (!m.keys.get (Nibble.ofNat (m.get x).toNat)))
  | .readDelay x => .ok () (m.set x m.timers.delay)
  | .awaitKey x => .ok () (m.awaitKey x)
  | .setDelay x => .ok () { m with timers := m.timers.setDelay (m.get x).toNat }
  | .setSound x => .ok () { m with timers := m.timers.setSound (m.get x).toNat }
  | .addIndex x => .ok () (m.addIndex x)
  | .loadGlyph x => .ok () { m with index := glyphs + glyphSize * ((m.get x).toNat % 16) }
  | .storeDecimal x => m.store (decimalDigits (m.get x))
  | .storeRegisters x => m.store ((registersTo x).map m.get)
  | .loadRegisters x => m.loadTo x

end Machine

end Chip8
