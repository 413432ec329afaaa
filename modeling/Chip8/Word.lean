/-!
# Instruction words

A machine fetches sixteen-bit words, but any integer may be handed to the decoder.  The fields
of a word are cut from its low sixteen bits; an integer below zero counts as its
two's complement.
-/

namespace Chip8

/-- A four-bit operand: the number of a register, or of rows in a sprite. -/
abbrev Nibble := Fin 16

def Nibble.ofNat (n : Nat) : Nibble := ⟨n % 16, by omega⟩

def Nibble.update {α : Type} (table : Vector α 16) (i : Nibble) (entry : α) : Vector α 16 :=
  table.set i entry

/-- A place among the 4096 bytes that twelve bits can name. -/
abbrev Address := Fin 4096

def addressSpan : Int := 4096

def wrapAddress (n : Int) : Int := n % addressSpan

def lowByte (n : Int) : UInt8 := UInt8.ofNat (n % 256).toNat

theorem Nibble.get_update {α : Type} (table : Vector α 16) (i j : Nibble) (entry : α) :
    (Nibble.update table i entry).get j = if i = j then entry else table.get j := by
  change (table.set i entry)[j] = if i = j then entry else table[j]
  simp [Vector.getElem_set, Fin.ext_iff]

theorem Nibble.get_replicate {α : Type} (entry : α) (i : Nibble) :
    (Vector.replicate 16 entry).get i = entry := by
  change (Vector.replicate 16 entry)[i] = entry
  exact Vector.getElem_replicate i.isLt

theorem wrapAddress_nonneg (n : Int) : 0 ≤ wrapAddress n := by
  simp only [wrapAddress, addressSpan]; omega

theorem wrapAddress_lt (n : Int) : wrapAddress n < 4096 := by
  simp only [wrapAddress, addressSpan]; omega

theorem wrapAddress_of_lt {n : Int} (h₀ : 0 ≤ n) (h : n < 4096) : wrapAddress n = n := by
  simp only [wrapAddress, addressSpan]; omega

theorem toNat_lowByte (n : Int) : ((lowByte n).toNat : Int) = n % 256 := by
  simp only [lowByte, UInt8.toNat_ofNat']
  omega

/-- An instruction word, as wide as an integer can be. -/
abbrev Word := Int

namespace Word

def low16 (w : Word) : Nat := (w % 65536).toNat

theorem low16_lt (w : Word) : w.low16 < 65536 := by
  simp only [low16]; omega

/-- The leading nibble, which picks a family of instructions. -/
def family (w : Word) : Nibble := ⟨w.low16 / 4096, by have := w.low16_lt; omega⟩

def x (w : Word) : Nibble := Nibble.ofNat (w.low16 / 256)

def y (w : Word) : Nibble := Nibble.ofNat (w.low16 / 16)

def n (w : Word) : Nibble := Nibble.ofNat w.low16

def nn (w : Word) : UInt8 := UInt8.ofNat (w.low16 % 256)

def nnn (w : Word) : Address := ⟨w.low16 % 4096, by omega⟩

theorem toNat_nn (w : Word) : w.nn.toNat = w.low16 % 256 := by
  simp [nn, UInt8.toNat_ofNat']

theorem nn_eq (w : Word) : w.nn.toNat = 16 * w.y + w.n := by
  simp only [toNat_nn, y, n, Nibble.ofNat]; omega

theorem nnn_eq (w : Word) : (w.nnn : Nat) = 256 * w.x + w.nn.toNat := by
  simp only [toNat_nn, nnn, x, Nibble.ofNat]; omega

theorem low16_eq (w : Word) : w.low16 = 4096 * w.family + w.nnn := by
  simp only [family, nnn]; omega

end Word

end Chip8
