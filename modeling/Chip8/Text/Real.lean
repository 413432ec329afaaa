import Chip8.Binary64.Shortest

/-!
# The text of floating point numbers

The fewest digits that read back, written by place from a ten-thousandth up to sixteen places
before the point, and with a power of ten beyond that.
-/

namespace Chip8.Text

/-- How decimals are laid out: written by place while the point stands after more than
`leastPoint` and at most `mostPoint` digits. -/
structure RealLayout where
  leastPoint : Int
  mostPoint : Int
  exponentMark : String
  leastExponentDigits : Nat
  wholeEnding : String
  infinity : String
  notANumber : String

def realLayout : RealLayout := ⟨-4, 16, "e", 2, ".0", "inf", "nan"⟩

namespace RealLayout

def power (f : RealLayout) (e : Int) : String :=
  let ds := Nat.toDigits 10 e.natAbs
  f.exponentMark ++ (if e < 0 then "-" else "+")
    ++ String.ofList (List.replicate (f.leastExponentDigits - ds.length) '0' ++ ds)

def decimal (f : RealLayout) (d : Binary64.Decimal) : String :=
  let ds := Nat.toDigits 10 d.digits
  let point : Int := ds.length + d.exponent
  if f.leastPoint < point ∧ point ≤ f.mostPoint then
    if point ≤ 0 then
      "0." ++ String.ofList (List.replicate (-point).toNat '0' ++ ds)
    else if ds.length ≤ point then
      String.ofList (ds ++ List.replicate (point - ds.length).toNat '0') ++ f.wholeEnding
    else
      String.ofList (ds.take point.toNat) ++ "." ++ String.ofList (ds.drop point.toNat)
  else
    let rest := ds.drop 1
    String.ofList (ds.take 1) ++ (if rest.isEmpty then "" else "." ++ String.ofList rest)
      ++ f.power (point - 1)

end RealLayout

def real (x : Float) : String :=
  let sign (negative : Bool) := if negative then "-" else ""
  match Binary64.parts x with
  | .notANumber => realLayout.notANumber
  | .infinite negative => sign negative ++ realLayout.infinity
  | .finite negative 0 _ => sign negative ++ "0" ++ realLayout.wholeEnding
  | .finite negative m e =>
    sign negative
      ++ realLayout.decimal (Binary64.shortest (x.toBits.toNat % Nat.pow 2 63) m e)

end Chip8.Text
