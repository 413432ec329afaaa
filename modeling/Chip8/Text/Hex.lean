/-!
# Hexadecimal text

Integers in base sixteen with lower-case digits, padded with zeros to a least width.  A minus
sign takes one place of that width.
-/

namespace Chip8.Text

/-- The digits of `n`, at least `width` of them. -/
def hexDigits (width n : Nat) : List Char :=
  List.replicate (width - (Nat.toDigits 16 n).length) '0' ++ Nat.toDigits 16 n

/-- An integer with its sign, at least `width` characters in all. -/
def hex (width : Nat) (n : Int) : String :=
  if n < 0 then String.ofList ('-' :: hexDigits (width - 1) n.natAbs)
  else String.ofList (hexDigits width n.natAbs)

def hexBytes (bytes : List UInt8) : String :=
  String.ofList (bytes.flatMap fun b => hexDigits 2 b.toNat)

theorem hex_natCast (width n : Nat) :
    hex width (n : Int) = String.ofList (hexDigits width n) := by
  simp [hex, show ¬((n : Int) < 0) by omega]

end Chip8.Text
