import Chip8.HostValue
import Chip8.Text.Fields
import Chip8.Text.Numeral
import Chip8.Word

/-!
# Keymaps

Sixteen different host key codes, one for each key of the keypad from 0 to F.  A keymap is
written as sixteen decimal integers with commas between them.
-/

namespace Chip8

/-- The host code of each keypad key. -/
structure Keymap where
  codes : Vector Int 16
  deriving DecidableEq

namespace Keymap

inductive Error
  | wrongCount
  | notInteger
  | duplicate
  /-- Only a text can be read as a keymap. -/
  | notText
  deriving DecidableEq, Repr

def Error.message : Error → String
  | .wrongCount =>
    "Incorrect number of keys defined -- 16 required.  Use commas to split numbers"
  | .notInteger => "Defined keys are not all integer values"
  | .duplicate => "Duplicate keys defined"
  | .notText => ""

def key? (m : Keymap) (code : Int) : Option Nibble := m.codes.finIdxOf? code

def toList (m : Keymap) : List (Int × Nat) := m.codes.toList.zipIdx

/-- Reads the codes one after the other; each has to differ from those in `earlier`. -/
def codesOf (read : String → Option Int) (earlier : List Int) :
    List String → Except Error (List Int)
  | [] => .ok []
  | field :: rest =>
    match read field with
    | none => .error .notInteger
    | some code =>
      if code ∈ earlier then .error .duplicate
      else (codesOf read (code :: earlier) rest).map (code :: ·)

def parseWith (read : String → Option Int) (text : String) : Except Error Keymap :=
  let fields := Text.commaFields text
  if fields.length = 16 then do
    let codes ← codesOf read [] fields
    if h : codes.toArray.size = 16 then return ⟨⟨codes.toArray, h⟩⟩ else throw .wrongCount
  else .error .wrongCount

def parse (text : String) : Except Error Keymap := parseWith Text.integer? text

def ofValue : HostValue → Except Error Keymap
  | .text s => parse s
  | _ => .error .notText

theorem length_codesOf {read : String → Option Int} {earlier : List Int} {fields : List String}
    {codes : List Int} (h : codesOf read earlier fields = .ok codes) :
    codes.length = fields.length := by
  induction fields generalizing earlier codes with
  | nil => cases h; rfl
  | cons field rest ih =>
    simp only [codesOf] at h
    split at h
    · cases h
    · split at h
      · cases h
      · rename_i code _ _
        cases hrest : codesOf read (code :: earlier) rest with
        | error e => simp [hrest, Except.map] at h
        | ok codes' =>
          simp only [hrest, Except.map, Except.ok.injEq] at h
          subst h
          simp [ih hrest]

/-- The keys of a keyboard's left block, row by row. -/
def standardText : String := "120,49,50,51,113,119,101,97,115,100,122,99,52,114,102,118"

end Keymap

end Chip8
