/-!
# Call stacks

The return addresses of the calls under way, innermost first.  The stack is no part of memory,
and its depth is limited.
-/

namespace Chip8

structure CallStack where
  limit : Int
  /-- Innermost call first. -/
  items : List Int
  deriving DecidableEq, Repr

namespace CallStack

inductive Error
  | overflow (limit : Int)
  | underflow
  deriving DecidableEq, Repr

def Error.message : Error → String
  | .overflow limit => "Stack overflow (more than " ++ toString limit ++ " nested calls)"
  | .underflow => "Stack underflow (return without call)"

def empty (limit : Int) : CallStack := ⟨limit, []⟩

def depth (s : CallStack) : Nat := s.items.length

/-- The items as they were pushed, the outermost call first. -/
def toList (s : CallStack) : List Int := s.items.reverse

def push (s : CallStack) (item : Int) : Except Error CallStack :=
  if s.limit ≤ s.depth then .error (.overflow s.limit)
  else .ok { s with items := item :: s.items }

def pop (s : CallStack) : Except Error (Int × CallStack) :=
  match s.items with
  | [] => .error .underflow
  | item :: rest => .ok (item, { s with items := rest })

def clear (s : CallStack) : CallStack := { s with items := [] }

end CallStack

end Chip8
