import Chip8.HostValue

/-!
# The choice of plugins

Either a window with its inputs and, unless it is muted, the mixer; or no window, no sound and
replayed inputs.
-/

namespace Chip8

structure Plugins where
  windowed : Bool
  silent : Bool
  deriving DecidableEq, Repr

namespace Plugins

inductive Error
  | noWindow
  /-- No plugins have this name. -/
  | unknown (name : String)
  /-- A name that no plugins have cannot be written. -/
  | unwritable

def Error.message : Error → String
  | .noWindow =>
    "PyGame does not appear to be installed.  Use the 'null' renderer to run headless."
  | .unknown name => "Unknown renderer '" ++ name ++ "'."
  | .unwritable => ""

/-- The plugins for a renderer's name.  A window is the default, where the host can open one. -/
def select (windowAvailable : Bool) (renderer : HostValue) (mute : Bool) :
    Except Error Plugins :=
  let window :=
    if windowAvailable then .ok { windowed := true, silent := mute } else .error .noWindow
  match renderer with
  | .null => window
  | .text "pygame" => window
  | .text "null" => .ok { windowed := false, silent := true }
  | renderer => .error ((renderer.display?.map .unknown).getD .unwritable)

end Plugins

end Chip8
