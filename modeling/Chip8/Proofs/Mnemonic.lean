import Chip8.Proofs.Hex
import Chip8.Proofs.Invariant
import Chip8.Proofs.Unread
import Mathlib.Logic.Function.Defs

/-!
# What a mnemonic tells

The text of an instruction is the format of its operation, filled with operands of fixed width.
With all hexadecimal digits blotted out no two formats look alike, so the text tells the operation;
and then it tells each operand, one after the other.  Nothing else of a word is ever executed.
-/

namespace Chip8

inductive Operation
  | clear
  | ret
  | jump
  | call
  | skipEqByte
  | skipNeByte
  | skipEq
  | loadByte
  | addByte
  | load
  | or
  | and
  | xor
  | add
  | sub
  | shiftRight
  | subFrom
  | shiftLeft
  | skipNe
  | loadIndex
  | jumpOffset
  | random
  | draw
  | skipPressed
  | skipReleased
  | readDelay
  | awaitKey
  | setDelay
  | setSound
  | addIndex
  | loadGlyph
  | storeDecimal
  | storeRegisters
  | loadRegisters
  deriving DecidableEq

inductive Operand
  | x
  | y
  | n
  | nn
  | nnn
  deriving DecidableEq

/-- A part of a format: text as it stands, or the place of an operand. -/
inductive Piece
  | text (s : String)
  | operand (o : Operand)

namespace Operand

/-- How many digits of an operand stand in front of the last one. -/
def leading : Operand → Nat
  | x => 0
  | y => 0
  | n => 0
  | nn => 1
  | nnn => 2

def value (w : Word) : Operand → Nat
  | x => w.x
  | y => w.y
  | n => w.n
  | nn => w.nn.toNat
  | nnn => w.nnn

theorem value_lt (w : Word) (o : Operand) : o.value w < 16 ^ (o.leading + 1) := by
  cases o with
  | x => exact w.x.isLt
  | y => exact w.y.isLt
  | n => exact w.n.isLt
  | nn => exact w.nn.toNat_lt
  | nnn => exact w.nnn.isLt

def digits (w : Word) (o : Operand) : List Char := Text.hexDigits (o.leading + 1) (o.value w)

theorem length_digits (w : Word) (o : Operand) : (o.digits w).length = o.leading + 1 :=
  Text.length_hexDigits (o.value_lt w)

theorem digits_inj {w₁ w₂ : Word} {o : Operand} (h : o.digits w₁ = o.digits w₂) :
    o.value w₁ = o.value w₂ :=
  Text.hexDigits_inj (o.value_lt w₁) (o.value_lt w₂) h

end Operand

namespace Operation

open Operand Piece

def format : Operation → List Piece
  | clear => [text "CLS"]
  | ret => [text "RET"]
  | jump => [text "JP 0x", operand nnn]
  | call => [text "CALL 0x", operand nnn]
  | skipEqByte => [text "SE V", operand x, text ", 0x", operand nn]
  | skipNeByte => [text "SNE V", operand x, text ", 0x", operand nn]
  | skipEq => [text "SE V", operand x, text ", V", operand y]
  | loadByte => [text "LD V", operand x, text ", 0x", operand nn]
  | addByte => [text "ADD V", operand x, text ", 0x", operand nn]
  | load => [text "LD V", operand x, text ", V", operand y]
  | or => [text "OR V", operand x, text ", V", operand y]
  | and => [text "AND V", operand x, text ", V", operand y]
  | xor => [text "XOR V", operand x, text ", V", operand y]
  | add => [text "ADD V", operand x, text ", V", operand y]
  | sub => [text "SUB V", operand x, text ", V", operand y]
  | shiftRight => [text "SHR V", operand x]
  | subFrom => [text "SUBN V", operand x, text ", V", operand y]
  | shiftLeft => [text "SHL V", operand x]
  | skipNe => [text "SNE V", operand x, text ", V", operand y]
  | loadIndex => [text "LD I, 0x", operand nnn]
  | jumpOffset => [text "JP V0, 0x", operand nnn]
  | random => [text "RND V", operand x, text ", 0x", operand nn]
  | draw => [text "DRW V", operand x, text ", V", operand y, text ", 0x", operand n]
  | skipPressed => [text "SKP V", operand x]
  | skipReleased => [text "SKNP V", operand x]
  | readDelay => [text "LD V", operand x, text ", DT"]
  | awaitKey => [text "LD V", operand x, text ", K"]
  | setDelay => [text "LD DT, V", operand x]
  | setSound => [text "LD ST, V", operand x]
  | addIndex => [text "ADD I, V", operand x]
  | loadGlyph => [text "LD F, V", operand x]
  | storeDecimal => [text "LD B, V", operand x]
  | storeRegisters => [text "LD [I], V", operand x]
  | loadRegisters => [text "LD V", operand x, text ", [I]"]

def all : List Operation :=
  [clear, ret, jump, call, skipEqByte, skipNeByte, skipEq, loadByte, addByte, load, or, and, xor,
    add, sub, shiftRight, subFrom, shiftLeft, skipNe, loadIndex, jumpOffset, random, draw,
    skipPressed, skipReleased, readDelay, awaitKey, setDelay, setSound, addIndex, loadGlyph,
    storeDecimal, storeRegisters, loadRegisters]

def instruction (w : Word) : Operation → Instruction
  | clear => .clear
  | ret => .ret
  | jump => .jump w.nnn
  | call => .call w.nnn
  | skipEqByte => .skipEqByte w.x w.nn
  | skipNeByte => .skipNeByte w.x w.nn
  | skipEq => .skipEq w.x w.y
  | loadByte => .loadByte w.x w.nn
  | addByte => .addByte w.x w.nn
  | load => .load w.x w.y
  | or => .or w.x w.y
  | and => .and w.x w.y
  | xor => .xor w.x w.y
  | add => .add w.x w.y
  | sub => .sub w.x w.y
  | shiftRight => .shiftRight w.x
  | subFrom => .subFrom w.x w.y
  | shiftLeft => .shiftLeft w.x
  | skipNe => .skipNe w.x w.y
  | loadIndex => .loadIndex w.nnn
  | jumpOffset => .jumpOffset w.nnn
  | random => .random w.x w.nn
  | draw => .draw w.x w.y w.n
  | skipPressed => .skipPressed w.x
  | skipReleased => .skipReleased w.x
  | readDelay => .readDelay w.x
  | awaitKey => .awaitKey w.x
  | setDelay => .setDelay w.x
  | setSound => .setSound w.x
  | addIndex => .addIndex w.x
  | loadGlyph => .loadGlyph w.x
  | storeDecimal => .storeDecimal w.x
  | storeRegisters => .storeRegisters w.x
  | loadRegisters => .loadRegisters w.x

end Operation

def Instruction.operation : Instruction → Operation
  | clear => .clear
  | ret => .ret
  | jump _ => .jump
  | call _ => .call
  | skipEqByte _ _ => .skipEqByte
  | skipNeByte _ _ => .skipNeByte
  | skipEq _ _ => .skipEq
  | loadByte _ _ => .loadByte
  | addByte _ _ => .addByte
  | load _ _ => .load
  | or _ _ => .or
  | and _ _ => .and
  | xor _ _ => .xor
  | add _ _ => .add
  | sub _ _ => .sub
  | shiftRight _ => .shiftRight
  | subFrom _ _ => .subFrom
  | shiftLeft _ => .shiftLeft
  | skipNe _ _ => .skipNe
  | loadIndex _ => .loadIndex
  | jumpOffset _ => .jumpOffset
  | random _ _ => .random
  | draw _ _ _ => .draw
  | skipPressed _ => .skipPressed
  | skipReleased _ => .skipReleased
  | readDelay _ => .readDelay
  | awaitKey _ => .awaitKey
  | setDelay _ => .setDelay
  | setSound _ => .setSound
  | addIndex _ => .addIndex
  | loadGlyph _ => .loadGlyph
  | storeDecimal _ => .storeDecimal
  | storeRegisters _ => .storeRegisters
  | loadRegisters _ => .loadRegisters

namespace Piece

def operand? : Piece → Option Operand
  | text _ => none
  | operand o => some o

def fill (w : Word) : Piece → List Char
  | text s => s.toList
  | operand o => o.digits w

def blot (c : Char) : Char := if c ∈ Text.hexAlphabet then '#' else c

/-- What is left of a piece if all digits are blotted out. -/
def outline : Piece → List Char
  | text s => s.toList.map blot
  | operand o => List.replicate (o.leading + 1) '#'

theorem map_blot_digits (w : Word) (o : Operand) :
    (o.digits w).map blot = List.replicate (o.leading + 1) '#' := by
  refine List.eq_replicate_iff.2 ⟨?_, ?_⟩
  · rw [List.length_map, Operand.length_digits]
  · intro c hc
    obtain ⟨d, hd, rfl⟩ := List.mem_map.1 hc
    exact if_pos (Text.mem_hexAlphabet_of_mem_hexDigits (o.value_lt w) hd)

theorem map_blot_fill (w : Word) (p : Piece) : (p.fill w).map blot = p.outline := by
  cases p with
  | text s => rfl
  | operand o => exact map_blot_digits w o

theorem length_fill (w₁ w₂ : Word) (p : Piece) : (p.fill w₁).length = (p.fill w₂).length := by
  cases p with
  | text s => rfl
  | operand o => simp only [fill, Operand.length_digits]

/-- Filled pieces in a row tell each operand, since their widths do not vary. -/
theorem value_eq_of_flatMap_fill {w₁ w₂ : Word} {pieces : List Piece}
    (h : pieces.flatMap (fill w₁) = pieces.flatMap (fill w₂)) {o : Operand}
    (ho : o ∈ pieces.filterMap operand?) : o.value w₁ = o.value w₂ := by
  induction pieces with
  | nil => exact absurd ho List.not_mem_nil
  | cons p rest ih =>
    rw [List.flatMap_cons, List.flatMap_cons] at h
    obtain ⟨hfirst, hrest⟩ := List.append_inj h (p.length_fill w₁ w₂)
    cases p with
    | text s => exact ih hrest ho
    | operand g =>
      rcases List.mem_cons.1 ho with rfl | ho
      · exact Operand.digits_inj hfirst
      · exact ih hrest ho

theorem flatMap_fill_congr {w₁ w₂ : Word} {pieces : List Piece}
    (h : ∀ o ∈ pieces.filterMap operand?, o.value w₁ = o.value w₂) :
    pieces.flatMap (fill w₁) = pieces.flatMap (fill w₂) := by
  refine List.flatMap_congr fun p hp => ?_
  cases p with
  | text s => rfl
  | operand o =>
    have ho : o ∈ pieces.filterMap operand? := List.mem_filterMap.2 ⟨_, hp, rfl⟩
    simp only [fill, Operand.digits, h o ho]

end Piece

namespace Operation

def operands (op : Operation) : List Operand := op.format.filterMap Piece.operand?

def fill (w : Word) (op : Operation) : List Char := op.format.flatMap (Piece.fill w)

def outline (op : Operation) : List Char := op.format.flatMap Piece.outline

theorem map_blot_fill (w : Word) (op : Operation) : (op.fill w).map Piece.blot = op.outline := by
  rw [fill, outline, List.map_flatMap]
  exact List.flatMap_congr fun p _ => p.map_blot_fill w

theorem mem_all (op : Operation) : op ∈ all := by cases op <;> decide

/-- No two operations have formats that look alike. -/
theorem nodup_outlines : (all.map outline).Nodup := by decide +kernel

theorem eq_of_fill_eq {w₁ w₂ : Word} {op₁ op₂ : Operation} (h : op₁.fill w₁ = op₂.fill w₂) :
    op₁ = op₂ := by
  -- Operands may read like the letters of a format, but not once all digits are blotted out.
  refine List.inj_on_of_nodup_map nodup_outlines op₁.mem_all op₂.mem_all ?_
  rw [← op₁.map_blot_fill w₁, h, op₂.map_blot_fill w₂]

theorem fill_eq_iff {w₁ w₂ : Word} {op₁ op₂ : Operation} :
    op₁.fill w₁ = op₂.fill w₂ ↔ op₁ = op₂ ∧ ∀ o ∈ op₁.operands, o.value w₁ = o.value w₂ := by
  constructor
  · intro h
    obtain rfl := eq_of_fill_eq h
    exact ⟨rfl, fun o ho => Piece.value_eq_of_flatMap_fill h ho⟩
  · rintro ⟨rfl, h⟩
    exact Piece.flatMap_fill_congr h

theorem toList_mnemonic_instruction (w : Word) (op : Operation) :
    (op.instruction w).mnemonic.toList = op.fill w := by
  cases op <;>
    simp [instruction, Instruction.mnemonic, Instruction.register, Instruction.registers,
      Instruction.byteOperand, Instruction.addressOperand, Text.hex_natCast, fill, format,
      Piece.fill, Operand.digits, Operand.leading, Operand.value]

/-- An operation executes nothing of a word but the operands that its text shows. -/
theorem instruction_congr {w₁ w₂ : Word} {op : Operation}
    (h : ∀ o ∈ op.operands, o.value w₁ = o.value w₂) : op.instruction w₁ = op.instruction w₂ := by
  have hx : Operand.x ∈ op.operands → w₁.x = w₂.x := fun ho => Fin.ext (h .x ho)
  have hy : Operand.y ∈ op.operands → w₁.y = w₂.y := fun ho => Fin.ext (h .y ho)
  have hn : Operand.n ∈ op.operands → w₁.n = w₂.n := fun ho => Fin.ext (h .n ho)
  have hnn : Operand.nn ∈ op.operands → w₁.nn = w₂.nn := fun ho => UInt8.toNat_inj.1 (h .nn ho)
  have hnnn : Operand.nnn ∈ op.operands → w₁.nnn = w₂.nnn := fun ho => Fin.ext (h .nnn ho)
  -- What is left of `h` is a fact about each operand, which the cases use or not.
  clear h
  cases op <;> simp_all [operands, format, instruction, Piece.operand?]

end Operation

namespace Instruction

variable {w w₁ w₂ : Word} {i i₁ i₂ : Instruction}

theorem eq_of_ofArithmetic? {x y n : Nibble} (hi : ofArithmetic? x y n = some i) (hx : x = w.x)
    (hy : y = w.y) : i = i.operation.instruction w := by
  subst hx hy
  unfold ofArithmetic? at hi
  split at hi <;> cases hi <;> rfl

theorem eq_of_ofMiscellany? (hi : ofMiscellany? w.x w.nn = some i) :
    i = i.operation.instruction w := by
  unfold ofMiscellany? at hi
  split at hi <;> cases hi <;> rfl

theorem eq_of_ofWord? (hi : ofWord? w = some i) : i = i.operation.instruction w := by
  unfold ofWord? at hi
  split at hi
  case h_9 => exact eq_of_ofArithmetic? hi rfl rfl
  case h_16 => exact eq_of_ofMiscellany? hi
  case h_1 | h_15 =>
    split at hi
    · cases hi
      rfl
    · split at hi <;> cases hi
      rfl
  case h_6 | h_10 =>
    split at hi <;> cases hi
    rfl
  all_goals
    cases hi
    rfl

theorem toList_mnemonic (hi : ofWord? w = some i) : i.mnemonic.toList = i.operation.fill w := by
  conv_lhs => rw [eq_of_ofWord? hi]
  exact i.operation.toList_mnemonic_instruction w

theorem mnemonic_eq_iff (h₁ : ofWord? w₁ = some i₁) (h₂ : ofWord? w₂ = some i₂) :
    i₁.mnemonic = i₂.mnemonic ↔
      i₁.operation = i₂.operation ∧ ∀ o ∈ i₁.operation.operands, o.value w₁ = o.value w₂ := by
  rw [← String.toList_inj, toList_mnemonic h₁, toList_mnemonic h₂]
  exact Operation.fill_eq_iff

theorem eq_of_mnemonic_eq (h₁ : ofWord? w₁ = some i₁) (h₂ : ofWord? w₂ = some i₂)
    (h : i₁.mnemonic = i₂.mnemonic) : i₁ = i₂ := by
  obtain ⟨hoperation, hoperands⟩ := (mnemonic_eq_iff h₁ h₂).1 h
  calc i₁
      = i₁.operation.instruction w₁ := eq_of_ofWord? h₁
    _ = i₁.operation.instruction w₂ := Operation.instruction_congr hoperands
    _ = i₂.operation.instruction w₂ := by rw [hoperation]
    _ = i₂ := (eq_of_ofWord? h₂).symm

end Instruction

namespace Machine

variable {w w₁ w₂ : Word} {i : Instruction}

/-- A word that decodes can only fail for the call stack. -/
theorem exists_stack_of_perform {m : Machine Grid} (h : Sound m)
    (hw : Instruction.ofWord? w = some i) {e : Error}
    (he : (m.holding w).perform.result = .error e) : ∃ s, e = .fault (.stack s) := by
  cases hstack : m.stackError? i with
  | some s =>
    have hexecute : (m.holding w).execute i = .error (.fault (.stack s)) (m.holding w) :=
      execute_of_stackError hstack
    rw [perform_of_error hw hexecute] at he
    exact ⟨s, (Except.error.inj he).symm⟩
  | none =>
    obtain ⟨n, hn, -, -⟩ := execute_of_sound h hstack
    have hexecute : (m.holding w).execute i = .ok () (n.marked w m.live) := by
      rw [holding, execute_marked, hn, mapState]
    rw [perform_of_ok hw hexecute] at he
    cases he

/-- The text of an instruction tells its operation and the operands in its format, and nothing
else of the word that it was decoded from matters: words with one text leave the same machine, but
for the word at hand, or the same error.  A usual machine can meet errors of its stack alone. -/
theorem mnemonic_determines_behaviour {a₁ a₂ : Option Int} {d₁ d₂ : Decoded}
    (h₁ : decode w₁ a₁ = .ok d₁) (h₂ : decode w₂ a₂ = .ok d₂) :
    (d₁.instruction.mnemonic = d₂.instruction.mnemonic ↔
      d₁.instruction.operation = d₂.instruction.operation ∧
        ∀ o ∈ d₁.instruction.operation.operands, o.value w₁ = o.value w₂) ∧
    (d₁.instruction.mnemonic = d₂.instruction.mnemonic →
      ∀ {ρ : Type} [Screen ρ] (m : Machine ρ),
        (m.holding w₂).perform.machine = (m.holding w₁).perform.machine.holding w₂ ∧
          (m.holding w₂).perform.result = (m.holding w₁).perform.result) ∧
    ∀ m, Reachable m → ∀ e, (m.holding w₁).perform.result = .error e →
      ∃ s, e = .fault (.stack s) := by
  obtain ⟨i₁, hi₁, rfl⟩ := decode_eq_ok_iff.1 h₁
  obtain ⟨i₂, hi₂, rfl⟩ := decode_eq_ok_iff.1 h₂
  refine ⟨Instruction.mnemonic_eq_iff hi₁ hi₂, ?_, ?_⟩
  · intro htext ρ _ m
    obtain rfl : i₁ = i₂ := Instruction.eq_of_mnemonic_eq hi₁ hi₂ htext
    exact perform_holding (m.holding w₁) w₂ hi₁ hi₂
  · intro m hm e he
    exact exists_stack_of_perform hm.legal.toSound hi₁ he

/-- The shifts show one register: other digits in the second place, or above the sixteen bits, are
never looked at. -/
theorem behaviour_of_shifts :
    (usual.holding 0xFF8136).perform.machine =
        (usual.holding 0x8126).perform.machine.holding 0xFF8136 ∧
      (usual.holding 0xFF8136).perform.result = (usual.holding 0x8126).perform.result := by
  have h₁ : decode 0x8126 none = .ok (.of 0x8126 (.shiftRight 1)) := rfl
  have h₂ : decode 0xFF8136 none = .ok (.of 0xFF8136 (.shiftRight 1)) := rfl
  obtain ⟨-, hbehaviour, -⟩ := mnemonic_determines_behaviour h₁ h₂
  exact hbehaviour rfl usual

end Machine

end Chip8
