import Chip8.HostValue
import Chip8.Text.Fields
import Chip8.Text.Numeral

/-!
# Palettes

A background and a foreground colour, written as two fields of six characters that are read as a
base-sixteen integer.  An empty field, or one that is not there, leaves the standard colour.
-/

namespace Chip8

structure Palette where
  background : Int
  foreground : Int
  deriving DecidableEq, Repr

structure Rgb where
  red : UInt8
  green : UInt8
  blue : UInt8
  deriving DecidableEq, Repr

namespace Rgb

def ofColour? (colour : Int) : Option Rgb :=
  if 0 ≤ colour ∧ colour < 0x1000000 then
    let n := colour.toNat
    some ⟨UInt8.ofNat (n / 65536), UInt8.ofNat (n / 256 % 256), UInt8.ofNat (n % 256)⟩
  else none

def bytes (c : Rgb) : Array UInt8 := #[c.red, c.green, c.blue]

end Rgb

namespace Palette

inductive Error
  | tooMany
  | wrongLength
  | notHex
  /-- Only a text can be read as a palette. -/
  | notText
  deriving DecidableEq, Repr

def Error.message : Error → String
  | .tooMany => "Too many palette colours defined.  Only a background and foreground are used."
  | .wrongLength => "Palette colours must all be 6 hex digits long."
  | .notHex => "Invalid palette colour defined."
  | .notText => ""

def standard : Palette := ⟨0x111111, 0xDDDDDD⟩

/-- The colour in a field; an empty field leaves `default`. -/
def colour (default : Int) (field : String) : Except Error Int :=
  if field.isEmpty then .ok default
  else if field.length ≠ 6 then .error .wrongLength
  else
    match Text.hexInteger? field with
    | some n => .ok n
    | none => .error .notHex

def parse (text : String) : Except Error Palette :=
  match Text.commaFields text with
  | [] => .ok standard
  | [back] => do
    let background ← colour standard.background back
    return { standard with background }
  | [back, fore] => do
    let background ← colour standard.background back
    let foreground ← colour standard.foreground fore
    return { background, foreground }
  | _ => .error .tooMany

/-- The palette that a value spells, the standard one if there is no value. -/
def ofValue : HostValue → Except Error Palette
  | .null => .ok standard
  | .text s => parse s
  | _ => .error .notText

end Palette

end Chip8
