import Chip8.Machine.Cycle
import Chip8.Screen.Grid

/-!
# Requests and runs

What a host asks of a machine, one request after the other, and what it is told.  A refused request
is told as such and the machine goes on; `Reachable` holds of every machine that a usual one can
become by requests.
-/

namespace Chip8

inductive Request
  | load (program : Array UInt8)
  | reset
  | cycle
  | tick
  | setKey (key isDown : HostValue)

inductive Refusal
  | machine (e : Machine.Error)
  | key (e : Keypad.Error)

/-- What a host is told: the line that was traced, and what a cycle decoded and executed or the
reason of a refusal. -/
structure Report where
  printed : Option String
  result : Except Refusal (Option Decoded)

def Request.Restarts : Request → Prop
  | .load program => program.size ≤ Machine.programLimit
  | .reset => True
  | _ => False

namespace Machine

variable {ρ : Type} [Screen ρ]

def Result.settle : Result ρ Unit → Machine ρ × Report
  | .ok () m => (m, ⟨none, .ok none⟩)
  | .error e m => (m, ⟨none, .error (.machine e)⟩)

def settleTurn (turn : Turn ρ) : Machine ρ × Report :=
  match turn.outcome with
  | .ok decoded => (turn.machine, ⟨turn.printed, .ok (some decoded)⟩)
  | .error e => (turn.machine, ⟨turn.printed, .error (.machine e)⟩)

def serve (m : Machine ρ) : Request → Machine ρ × Report
  | .load program => Result.settle (m.load program)
  | .reset => Result.settle m.reset
  | .cycle => settleTurn m.cycle
  | .tick => (m.tick, ⟨none, .ok none⟩)
  | .setKey key isDown =>
    match m.setKey key isDown with
    | .ok m' => (m', ⟨none, .ok none⟩)
    | .error e => (m, ⟨none, .error (.key e)⟩)

def after (m : Machine ρ) : List Request → Machine ρ
  | [] => m
  | r :: rest => (m.serve r).1.after rest

def reports (m : Machine ρ) : List Request → List Report
  | [] => []
  | r :: rest => (m.serve r).2 :: (m.serve r).1.reports rest

@[simp] theorem after_nil (m : Machine ρ) : m.after [] = m := rfl

@[simp] theorem after_cons (m : Machine ρ) (r : Request) (rest : List Request) :
    m.after (r :: rest) = (m.serve r).1.after rest := rfl

theorem after_append (m : Machine ρ) (rs ss : List Request) :
    m.after (rs ++ ss) = (m.after rs).after ss := by
  induction rs generalizing m with
  | nil => rfl
  | cons r rest ih => exact ih (m.serve r).1

@[simp] theorem serve_cycle (m : Machine ρ) : (m.serve .cycle).1 = m.cycle.machine := by
  unfold serve settleTurn
  cases m.cycle.outcome <;> rfl

theorem serve_setKey (m : Machine ρ) (key isDown : HostValue) :
    (m.serve (.setKey key isDown)).1 =
      { m with
        keypad :=
          match Keypad.key? key with
          | some n => m.keypad.set n isDown.truth
          | none => m.keypad } := by
  cases hkey : Keypad.key? key with
  | none => simp only [serve, setKey, Keypad.setKey, hkey, Except.map]
  | some n => simp only [serve, setKey, Keypad.setKey, hkey, Except.map]

def standard (display : Display ρ) (random : RandomSource) (indexOverflow live : Bool) :
    Except Error (Machine ρ) :=
  new (Memory.blank memorySize) stackDepth display random indexOverflow live

/-- The machines that a usual one on a grid can become by requests. -/
inductive Reachable : Machine Grid → Prop
  | built {room : Memory.Room} {scale : HostValue} {width height : Int} {display : Display Grid}
      {calls : List HostCall} {random : RandomSource} {indexOverflow live : Bool} {m : Machine Grid}
      (hd : Display.new room (Grid.new scale) width height = .ok (display, calls))
      (hm : standard display random indexOverflow live = .ok m) : Reachable m
  | served {m : Machine Grid} (h : Reachable m) (r : Request) : Reachable (m.serve r).1

theorem Reachable.after {m : Machine Grid} (h : Reachable m) (rs : List Request) :
    Reachable (m.after rs) := by
  induction rs generalizing m with
  | nil => exact h
  | cons r rest ih => exact ih (h.served r)

end Machine

end Chip8
