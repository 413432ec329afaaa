import Chip8.Proofs.Footprint
import Chip8.Proofs.Grammar

/-!
# Results and flags

Arithmetic between two registers leaves a byte in the first and a flag in the last.  As long as
these are not the same register, byte and flag together tell the exact result; where they are the
same it holds the flag.  The operands are always those from before, whichever registers they share
with each other and with the flag.
-/

namespace Chip8

inductive Arithmetic
  | add
  | sub
  | shiftRight
  | subFrom
  | shiftLeft

namespace Arithmetic

def lastNibble : Arithmetic → Nat
  | add => 0x4
  | sub => 0x5
  | shiftRight => 0x6
  | subFrom => 0x7
  | shiftLeft => 0xE

def instruction (x y : Nibble) : Arithmetic → Instruction
  | add => .add x y
  | sub => .sub x y
  | shiftRight => .shiftRight x
  | subFrom => .subFrom x y
  | shiftLeft => .shiftLeft x

def result (a b : UInt8) : Arithmetic → UInt8
  | add => a + b
  | sub => a - b
  | shiftRight => a >>> 1
  | subFrom => b - a
  | shiftLeft => a <<< 1

/-- The flag for two operands: one if the sum is no byte, if nothing is borrowed, or if the bit that
is shifted out was set, and zero otherwise. -/
def flag (a b : Nat) : Arithmetic → Nat
  | add => if 255 < a + b then 1 else 0
  | sub => if b ≤ a then 1 else 0
  | shiftRight => a % 2
  | subFrom => if a ≤ b then 1 else 0
  | shiftLeft => if 128 ≤ a then 1 else 0

/-- Whether a byte and a flag stand for the exact result of two operands. -/
def Recovers (a b byte flag : Int) : Arithmetic → Prop
  | add => 256 * flag + byte = a + b
  | sub => byte = a - b + 256 * (1 - flag)
  | shiftRight => 2 * byte + flag = a
  | subFrom => byte = b - a + 256 * (1 - flag)
  | shiftLeft => 256 * flag + byte = 2 * a

theorem recovers (op : Arithmetic) (a b : UInt8) :
    op.Recovers a.toNat b.toNat (op.result a b).toNat (op.flag a.toNat b.toNat) := by
  have ha := a.toNat_lt
  have hb := b.toNat_lt
  cases op with
  | add =>
    simp only [Recovers, result, flag, UInt8.toNat_add]
    split <;> omega
  | sub | subFrom =>
    simp only [Recovers, result, flag, UInt8.toNat_sub]
    split <;> omega
  | shiftRight =>
    have hone : (1 : UInt8).toNat % 8 = 1 := rfl
    simp only [Recovers, result, flag, UInt8.toNat_shiftRight, hone, Nat.shiftRight_eq_div_pow]
    omega
  | shiftLeft =>
    have hone : (1 : UInt8).toNat % 8 = 1 := rfl
    simp only [Recovers, result, flag, UInt8.toNat_shiftLeft, hone, Nat.shiftLeft_eq]
    split <;> omega

end Arithmetic

namespace Machine

variable {ρ : Type} {m : Machine ρ}

/-! ## Registers -/

theorem odd_eq (b : UInt8) : (b % 2 == 1) = decide (b.toNat % 2 = 1) := by
  rw [Bool.eq_iff_iff, beq_iff_eq, decide_eq_true_iff, ← UInt8.toNat_inj, UInt8.toNat_mod]
  rfl

theorem toNat_get_flag (m : Machine ρ) (on : Bool) :
    ((m.flag on).get flagRegister).toNat = if on then 1 else 0 := by
  unfold flag
  rw [get_set]
  cases on <;> rfl

structure Computed (op : Arithmetic) (x y : Nibble) (m n : Machine ρ) : Prop where
  flag : (n.get flagRegister).toNat = op.flag (m.get x).toNat (m.get y).toNat
  recovers : x ≠ flagRegister →
    op.Recovers (m.get x).toNat (m.get y).toNat (n.get x).toNat (n.get flagRegister).toNat
  others : ∀ r, r ≠ x → r ≠ flagRegister → n.get r = m.get r

theorem computed_set_flag {op : Arithmetic} {x y : Nibble} {on : Bool}
    (hon : (if on then 1 else 0) = op.flag (m.get x).toNat (m.get y).toNat) :
    Computed op x y m ((m.set x (op.result (m.get x) (m.get y))).flag on) where
  flag := by rw [toNat_get_flag, hon]
  recovers := by
    intro hx
    rw [toNat_get_flag, hon, get_flag_of_ne hx, get_set]
    exact op.recovers _ _
  others := fun r hx hflag => get_set_flag (not_or.2 ⟨hx, hflag⟩) _ _

variable [Screen ρ]

theorem exists_execute_arithmetic (m : Machine ρ) (op : Arithmetic) (x y : Nibble) :
    ∃ n, m.execute (op.instruction x y) = .ok () n ∧ Computed op x y m n := by
  cases op with
  | add => exact ⟨_, rfl, computed_set_flag (by simp [Arithmetic.flag])⟩
  | sub => exact ⟨_, rfl, computed_set_flag (by simp [Arithmetic.flag, UInt8.le_iff_toNat_le])⟩
  | shiftRight =>
    refine ⟨_, rfl, computed_set_flag ?_⟩
    simp only [odd_eq, Arithmetic.flag, decide_eq_true_iff]
    split <;> omega
  | subFrom =>
    exact ⟨_, rfl, computed_set_flag (by simp [Arithmetic.flag, UInt8.le_iff_toNat_le])⟩
  | shiftLeft =>
    exact ⟨_, rfl, computed_set_flag (by simp [Arithmetic.flag, UInt8.le_iff_toNat_le])⟩

theorem encode_arithmetic (op : Arithmetic) (x y : Nibble) :
    (op.instruction x y).encode y = Instruction.pairWord 0x8 x y op.lastNibble := by
  cases op <;> rfl

theorem get_of_execute_set {i : Instruction} {x : Nibble} {value : Machine ρ → UInt8}
    (hi : ∀ m : Machine ρ, m.execute i = .ok () (m.set x (value m))) (m : Machine ρ) (y : Nibble) :
    (m.exec (i.encode y : Nat)).result = .ok i ∧
      ∀ r, r ≠ x → (m.exec (i.encode y : Nat)).machine.get r = m.get r := by
  obtain ⟨hresult, hmachine⟩ := exec_encode y (hi (m.holding (i.encode y : Nat)))
  refine ⟨hresult, fun r hr => ?_⟩
  rw [hmachine]
  exact get_set_of_ne hr _

/-- Whatever registers the operands and the flag share, the flag is that of the operands as they
were before; where the result is not overwritten by it, the two together tell the exact result; and
no other register changes.  The operations without a flag change their first operand alone. -/
theorem flag_and_byte_tell_result (m : Machine ρ) (x y : Nibble) :
    (∀ op : Arithmetic,
      (m.exec (Instruction.pairWord 0x8 x y op.lastNibble)).result =
          .ok (op.instruction x y) ∧
        Computed op x y m
          (m.exec (Instruction.pairWord 0x8 x y op.lastNibble)).machine) ∧
    ∀ (byte : UInt8) (i : Instruction),
      i ∈ [.addByte x byte, .load x y, .or x y, .and x y, .xor x y] →
        (m.exec (i.encode y : Nat)).result = .ok i ∧
          ∀ r, r ≠ x → (m.exec (i.encode y : Nat)).machine.get r = m.get r := by
  constructor
  · intro op
    rw [← encode_arithmetic]
    obtain ⟨n, hn, hcomputed⟩ :=
      exists_execute_arithmetic (m.holding ((op.instruction x y).encode y : Nat)) op x y
    obtain ⟨hresult, hmachine⟩ := exec_encode y hn
    rw [hmachine]
    exact ⟨hresult, hcomputed.flag, hcomputed.recovers, hcomputed.others⟩
  · intro byte i hi
    simp only [List.mem_cons, List.not_mem_nil, or_false] at hi
    rcases hi with rfl | rfl | rfl | rfl | rfl <;> exact get_of_execute_set (fun _ => rfl) m y

/-- A sum whose second operand is the flag register tells 300; in a difference whose first operand
is that register the flag is all that is left; and a sum without a flag leaves it alone. -/
theorem flag_and_byte_of_shared_registers :
    (0x1 ≠ flagRegister ∧
      (((usual.set 0x1 200).set 0xF 100).exec 0x81F4).machine.get 0xF = 1 ∧
      (((usual.set 0x1 200).set 0xF 100).exec 0x81F4).machine.get 0x1 = 44) ∧
    (((usual.set 0x1 200).set 0xF 100).exec 0x8F15).machine.get 0xF = 0 ∧
    (((usual.set 0x1 200).set 0xF 100).exec 0x71FF).machine.get 0xF = 100 := by
  obtain ⟨m, hm⟩ : ∃ m, m = (usual.set 0x1 200).set 0xF 100 := ⟨_, rfl⟩
  rw [← hm]
  have h₁ : m.get 0x1 = 200 := by
    rw [hm]
    rfl
  have hF : m.get 0xF = 100 := by
    rw [hm]
    rfl
  have hother : (0x1 : Nibble) ≠ flagRegister := by decide
  have hsum := ((flag_and_byte_tell_result m 0x1 0xF).1 .add).2
  have hdifference := ((flag_and_byte_tell_result m 0xF 0x1).1 .sub).2
  have hbyte := (flag_and_byte_tell_result m 0x1 0x0).2 0xFF (.addByte 0x1 0xFF)
    (List.mem_cons_self ..)
  have hflag := hsum.flag
  have htold := hsum.recovers hother
  have hborrow := hdifference.flag
  rw [h₁, hF] at hflag htold hborrow
  rw [hflag] at htold
  have hexact : 256 * 1 + (((m.exec 0x81F4).machine.get 0x1).toNat : Int) = 300 := htold
  have hresult : ((m.exec 0x81F4).machine.get 0x1).toNat = 44 := by omega
  exact ⟨⟨hother, UInt8.toNat_inj.1 hflag, UInt8.toNat_inj.1 hresult⟩, UInt8.toNat_inj.1 hborrow,
    (hbyte.2 _ hother.symm).trans hF⟩

end Machine

end Chip8
