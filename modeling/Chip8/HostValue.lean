import Chip8.Number
import Chip8.Text.Numeral
import Chip8.Text.Quoted
import Chip8.Text.Real

/-!
# Values given by the host

Whatever a host may hand over where a key, a flag, a number or a name is expected; how such a
value counts as a flag and as a number, and how it is written in messages.
-/

namespace Chip8

inductive HostValue
  | null
  | bool (b : Bool)
  | int (n : Int)
  | real (x : Float)
  | text (s : String)
  | list (items : List HostValue)
  | object (fields : List (String × HostValue))

namespace HostValue

/-- Nothing, zero and whatever is empty count as false. -/
def truth : HostValue → Bool
  | .null => false
  | .bool b => b
  | .int n => n != 0
  | .real x => x != 0.0
  | .text s => s != ""
  | .list items => !items.isEmpty
  | .object fields => !fields.isEmpty

/-- The number that a value is; a flag counts as zero or one. -/
def number? : HostValue → Option Number
  | .bool b => some (.whole (if b then 1 else 0))
  | .int n => some (.whole n)
  | .real x => some (.real x)
  | _ => none

def whole? (v : HostValue) : Option Int := v.number?.bind Number.whole?

mutual

/-- A value as it is written inside a message, texts between quotes, unless one of its integers has
too many digits. -/
def literal? : HostValue → Option String
  | .null => some "None"
  | .bool b => some (if b then "True" else "False")
  | .int n => Text.writtenInteger? n
  | .real x => some (Text.real x)
  | .text s => some (Text.quoted s)
  | .list items => (literals? items).map fun texts => "[" ++ ", ".intercalate texts ++ "]"
  | .object fields =>
    (fieldLiterals? fields).map fun texts => "\x7b" ++ ", ".intercalate texts ++ "\x7d"

def literals? : List HostValue → Option (List String)
  | [] => some []
  | v :: rest => do return (← literal? v) :: (← literals? rest)

def fieldLiterals? : List (String × HostValue) → Option (List String)
  | [] => some []
  | (name, v) :: rest =>
    do return (Text.quoted name ++ ": " ++ (← literal? v)) :: (← fieldLiterals? rest)

end

/-- A value as it is shown on its own: a text stands for itself. -/
def display? : HostValue → Option String
  | .text s => some s
  | v => v.literal?

mutual

def Writable : HostValue → Prop
  | .int n => Text.decimalLength n ≤ Text.mostDecimalDigits
  | .list items => AllWritable items
  | .object fields => FieldsWritable fields
  | _ => True

def AllWritable : List HostValue → Prop
  | [] => True
  | v :: rest => Writable v ∧ AllWritable rest

def FieldsWritable : List (String × HostValue) → Prop
  | [] => True
  | (_, v) :: rest => Writable v ∧ FieldsWritable rest

end

mutual

theorem isSome_literal? (v : HostValue) : v.literal?.isSome = true ↔ v.Writable := by
  cases v with
  | int n =>
    unfold literal? Text.writtenInteger? Writable
    split
    · exact iff_of_false nofun (Nat.not_le.2 ‹_›)
    · exact iff_of_true rfl (Nat.not_lt.1 ‹_›)
  | list items =>
    rw [literal?, Writable, Option.isSome_map]
    exact isSome_literals? items
  | object fields =>
    rw [literal?, Writable, Option.isSome_map]
    exact isSome_fieldLiterals? fields
  | _ => exact iff_of_true rfl trivial

theorem isSome_literals? (items : List HostValue) :
    (literals? items).isSome = true ↔ AllWritable items := by
  cases items with
  | nil => exact iff_of_true rfl trivial
  | cons v rest =>
    rw [literals?, AllWritable, ← isSome_literal? v, ← isSome_literals? rest]
    cases v.literal? <;> cases literals? rest <;> simp

theorem isSome_fieldLiterals? (fields : List (String × HostValue)) :
    (fieldLiterals? fields).isSome = true ↔ FieldsWritable fields := by
  cases fields with
  | nil => exact iff_of_true rfl trivial
  | cons field rest =>
    obtain ⟨name, v⟩ := field
    rw [fieldLiterals?, FieldsWritable, ← isSome_literal? v, ← isSome_fieldLiterals? rest]
    cases v.literal? <;> cases fieldLiterals? rest <;> simp

end

end HostValue

end Chip8
