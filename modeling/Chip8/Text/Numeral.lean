import Chip8.Binary64
import Chip8.Text.Digit

/-!
# Numerals

Reading integers and real numbers.  Blanks around a numeral are dropped, a sign may come first,
digits may be of any script, and single underscores may stand between digits.
-/

namespace Chip8.Text

/-- The values of digits with at most one underscore between two of them; at least one digit. -/
def digits? (base : Nat) : List Char → Option (List Nat)
  | [] => none
  | [c] => (digitValue? base c).map ([·])
  | c :: '_' :: rest => do
    let d ← digitValue? base c
    let ds ← digits? base rest
    return d :: ds
  | c :: rest => do
    let d ← digitValue? base c
    let ds ← digits? base rest
    return d :: ds

def valueOfDigits (base : Nat) (ds : List Nat) : Nat := ds.foldl (fun n d => base * n + d) 0

/-- Splits a sign off; `true` for a minus. -/
def splitSign : List Char → Bool × List Char
  | '-' :: rest => (true, rest)
  | '+' :: rest => (false, rest)
  | cs => (false, cs)

/-- The digits of the longest decimal numeral that is read or written. -/
def mostDecimalDigits : Nat := 4300

def integer? (text : String) : Option Int := do
  let (negative, body) := splitSign (trimBlanks text.toList)
  let ds ← digits? 10 body
  if mostDecimalDigits < ds.length then none
  return Binary64.signed negative (valueOfDigits 10 ds)

def decimalLength (n : Int) : Nat := (Nat.toDigits 10 n.natAbs).length

def writtenInteger? (n : Int) : Option String :=
  if mostDecimalDigits < decimalLength n then none else some (toString n)

/-- Drops `0x` and an underscore after it. -/
def dropHexMark : List Char → List Char
  | zero :: mark :: rest =>
    if decimalValue? zero = some 0 ∧ (mark = 'x' ∨ mark = 'X') then
      match rest with
      | '_' :: rest => rest
      | rest => rest
    else zero :: mark :: rest
  | cs => cs

/-- An integer in base sixteen; `0x` may precede its digits. -/
def hexInteger? (text : String) : Option Int := do
  let (negative, body) := splitSign (trimBlanks text.toList)
  let ds ← digits? 16 (dropHexMark body)
  return Binary64.signed negative (valueOfDigits 16 ds)

def underscoresSeparate : List Char → Bool
  | [] => true
  | '_' :: _ => false
  | c :: '_' :: d :: rest =>
    (decimalValue? c).isSome && (decimalValue? d).isSome && underscoresSeparate (d :: rest)
  | _ :: rest => underscoresSeparate rest

/-- The number nearest to `digits * 10 ^ exponent`; infinite beyond the largest. -/
def realOfDecimal (negative : Bool) (digits : Nat) (exponent : Int) : Float :=
  let point : Int := (Nat.toDigits 10 digits).length + exponent
  let infinite : Float := if negative then -1.0 / 0.0 else 1.0 / 0.0
  if digits = 0 ∨ point < -400 then if negative then -0.0 else 0.0
  else if 400 < point then infinite
  else
    let found? :=
      if 0 ≤ exponent then Binary64.ofQuotient? negative (digits * Nat.pow 10 exponent.toNat) 1
      else Binary64.ofQuotient? negative digits (Nat.pow 10 (-exponent).toNat)
    found?.getD infinite

/-- The power of ten at the end of a numeral; an empty end is no power. -/
def power? : List Char → Option Int
  | [] => some 0
  | mark :: rest =>
    if mark = 'e' ∨ mark = 'E' then do
      let (negative, body) := splitSign rest
      let ds ← body.mapM decimalValue?
      if ds.isEmpty then none
      return Binary64.signed negative (valueOfDigits 10 ds)
    else none

/-- A decimal without sign: digits, a point among them, and a power of ten. -/
def decimal? (negative : Bool) (cs : List Char) : Option Float := do
  let isDigit (c : Char) := (decimalValue? c).isSome
  let whole := cs.takeWhile isDigit
  let afterWhole := cs.dropWhile isDigit
  let (places, rest) :=
    match afterWhole with
    | '.' :: tail => (tail.takeWhile isDigit, tail.dropWhile isDigit)
    | tail => ([], tail)
  let ds := (whole ++ places).filterMap decimalValue?
  if ds.isEmpty then none
  let power ← power? rest
  return realOfDecimal negative (valueOfDigits 10 ds) (power - places.length)

def real? (text : String) : Option Float :=
  let cs := trimBlanks text.toList
  if underscoresSeparate cs then
    let (negative, body) := splitSign (cs.filter (· ≠ '_'))
    let name := String.ofList (body.map Char.toLower)
    if name = "inf" ∨ name = "infinity" then some (if negative then -1.0 / 0.0 else 1.0 / 0.0)
    else if name = "nan" then some (0.0 / 0.0)
    else decimal? negative body
  else none

end Chip8.Text
