import Chip8.Session

/-!
# Command lines

Options may stand before and after the name of the program.  A long option may be shortened to
any start that no other option shares, and takes its value after an equals sign or as the next
argument.  Short options without values may be joined, and a value may follow its short option
directly.  After two hyphens nothing is an option, and two hyphens as a value leave an option
empty.  An argument that looks like a negative number
or holds a blank is no option unless it begins with one.
-/

namespace Chip8.CommandLine

inductive Flag
  | help
  | clockSpeed
  | renderer
  | scale
  | mute
  | tone
  | keymap
  | palette
  | indexOverflow
  | debug
  deriving DecidableEq, Repr

namespace Flag

def all : List Flag :=
  [.help, .clockSpeed, .renderer, .scale, .mute, .tone, .keymap, .palette, .indexOverflow, .debug]

def name : Flag → String
  | .help => "help"
  | .clockSpeed => "clock_speed"
  | .renderer => "renderer"
  | .scale => "scale"
  | .mute => "mute"
  | .tone => "tone"
  | .keymap => "keymap"
  | .palette => "palette"
  | .indexOverflow => "index_overflow_quirks"
  | .debug => "debug"

def letter? : Flag → Option Char
  | .help => some 'h'
  | .clockSpeed => some 'c'
  | .renderer => some 'r'
  | .scale => some 's'
  | .mute => some 'm'
  | .tone => some 't'
  | .keymap => some 'k'
  | .palette => some 'p'
  | .indexOverflow => none
  | .debug => some 'd'

def takesValue : Flag → Bool
  | .help => false
  | .debug => false
  | _ => true

def ofLetter? (c : Char) : Option Flag := all.find? fun f => f.letter? == some c

def ofName? (name : List Char) : Option Flag := all.find? fun f => f.name.toList == name

def startingWith (start : List Char) : List Flag :=
  all.filter fun f => start.isPrefixOf f.name.toList

end Flag

inductive Exit
  | help
  | fault
  deriving DecidableEq, Repr

def Exit.code : Exit → Nat
  | .help => 0
  | .fault => 2

inductive Token
  | operand (text : String)
  /-- An option, with its short name or its long one, and what follows the name in the same
  argument. -/
  | option (flag : Flag) (short : Bool) (tail : Option (List Char))
  | unknown
  deriving DecidableEq, Repr

/-- A text as far as its first equals sign, and what follows that sign. -/
def splitEquals (cs : List Char) : List Char × Option (List Char) :=
  match cs.dropWhile (· ≠ '=') with
  | [] => (cs, none)
  | _ :: rest => (cs.takeWhile (· ≠ '='), some rest)

/-- Whether what follows a hyphen makes it a negative number: digits, perhaps with a point before
the last of them; a line may end after it. -/
def looksNumeric (cs : List Char) : Bool :=
  let cs := if cs.getLast? = some '\n' then cs.dropLast else cs
  let isDigit (c : Char) := (Text.decimalValue? c).isSome
  match cs.dropWhile isDigit with
  | [] => !cs.isEmpty
  | '.' :: places => !places.isEmpty && places.all isDigit
  | _ => false

/-- An argument that begins with a hyphen but names no option. -/
def other (text : String) (afterHyphen : List Char) : Token :=
  if looksNumeric afterHyphen ∨ ' ' ∈ afterHyphen then .operand text else .unknown

def longToken (text : String) (cs : List Char) : Except Exit Token :=
  let (start, tail) := splitEquals cs
  match Flag.ofName? start with
  | some flag => .ok (.option flag false tail)
  | none =>
    match Flag.startingWith start with
    | [] => .ok (other text ('-' :: cs))
    | [flag] => .ok (.option flag false tail)
    | _ => .error .fault

/-- What stands after a short name within its argument; an equals sign between is left out. -/
def tailOf : List Char → Option (List Char)
  | [] => none
  | '=' :: rest => some rest
  | rest => some rest

/-- What an argument is; a long option that is cut too short is a fault. -/
def token (text : String) : Except Exit Token :=
  match text.toList with
  | '-' :: '-' :: cs => longToken text cs
  | '-' :: c :: cs =>
    match Flag.ofLetter? c with
    | some flag => .ok (.option flag true (tailOf cs))
    | none => .ok (other text (c :: cs))
  | _ => .ok (.operand text)

def splitAtHyphens (args : List String) : List String × Option (List String) :=
  match args.dropWhile (· ≠ "--") with
  | [] => (args, none)
  | _ :: rest => (args.takeWhile (· ≠ "--"), some rest)

/-- What stands at the end of an argument with joined options. -/
inductive Finish
  | complete
  /-- The last option takes the next argument as its value. -/
  | wants (flag : Flag)
  | value (flag : Flag) (text : List Char)
  deriving DecidableEq, Repr

/-- The options without values that are joined in an argument, and its end. -/
structure Joined where
  flags : List Flag
  finish : Finish
  deriving DecidableEq, Repr

def Joined.alone (flag : Flag) : Joined :=
  if flag.takesValue then ⟨[], .wants flag⟩ else ⟨[flag], .complete⟩

/-- Takes joined options apart, from an option on that is followed by more text: its value, or
else the letters of further options. -/
def join (flag : Flag) : List Char → Except Exit Joined
  | [] => if flag.takesValue then .ok ⟨[], .value flag []⟩ else .error .fault
  | c :: rest =>
    if flag.takesValue then .ok ⟨[], .value flag (c :: rest)⟩
    else do
      let some next := Flag.ofLetter? c | throw .fault
      let joined ← if rest.isEmpty then pure (Joined.alone next) else join next rest
      return { joined with flags := flag :: joined.flags }

def expand (flag : Flag) (short : Bool) : Option (List Char) → Except Exit Joined
  | none => .ok (Joined.alone flag)
  | some text => if short ∨ flag.takesValue then join flag text else .error .fault

inductive Given (α : Type)
  | absent
  /-- Two hyphens, which stand for no value. -/
  | empty
  | value (a : α)
  deriving DecidableEq, Repr

namespace Given

variable {α : Type}

def ofText (read? : String → Option α) (text : String) : Except Exit (Given α) :=
  if text = "--" then .ok .empty
  else
    match read? text with
    | some a => .ok (.value a)
    | none => .error .fault

/-- What was given, as a setting; two hyphens make an empty list. -/
def toSetting (setting : α → HostValue) : Given α → HostValue
  | .absent => .null
  | .empty => .list []
  | .value a => setting a

end Given

structure Options where
  filename : String
  clockSpeed : Given Int
  renderer : Given String
  scale : Given Int
  mute : Given Int
  tone : Given Float
  keymap : Given String
  palette : Given String
  indexOverflow : Given Int
  debug : Bool

namespace Options

def standard (filename : String) : Options where
  filename
  clockSpeed := .absent
  renderer := .absent
  scale := .absent
  mute := .value 0
  tone := .absent
  keymap := .value Keymap.standardText
  palette := .absent
  indexOverflow := .absent
  debug := false

def raise (o : Options) : Flag → Except Exit Options
  | .help => .error .help
  | .debug => .ok { o with debug := true }
  | _ => .ok o

def switch? (text : String) : Option Int :=
  (Text.integer? text).filter fun n => n = 0 ∨ n = 1

def renderer? (text : String) : Option String :=
  if text = "pygame" ∨ text = "null" then some text else none

def assign (o : Options) (flag : Flag) (text : String) : Except Exit Options :=
  match flag with
  | .clockSpeed => do return { o with clockSpeed := ← Given.ofText Text.integer? text }
  | .renderer => do return { o with renderer := ← Given.ofText renderer? text }
  | .scale => do return { o with scale := ← Given.ofText Text.integer? text }
  | .mute => do return { o with mute := ← Given.ofText switch? text }
  | .tone => do return { o with tone := ← Given.ofText Text.real? text }
  | .keymap => do return { o with keymap := ← Given.ofText some text }
  | .palette => do return { o with palette := ← Given.ofText some text }
  | .indexOverflow => do return { o with indexOverflow := ← Given.ofText switch? text }
  | .help => .ok o
  | .debug => .ok o

end Options

/-- What was read so far.  A stray argument is a fault in the end, once no option asks for
help. -/
structure Reading where
  options : Options
  named : Bool
  stray : Bool
  /-- Whether the last argument was the name of the program. -/
  justNamed : Bool

namespace Reading

/-- An argument that is no option: the name of the program, if it is the first. -/
def operand (r : Reading) (text : String) : Reading :=
  if r.named then { r with stray := true, justNamed := false }
  else { r with options := { r.options with filename := text }, named := true, justNamed := true }

/-- An option's argument, with the argument that follows it as far as that is no option; whether
the second was taken. -/
def option (r : Reading) (joined : Joined) (next : Option String) :
    Except Exit (Reading × Bool) := do
  let value? ←
    match joined.finish with
    | .wants flag =>
      match next with
      | some text => pure (some (flag, text))
      | none => throw .fault
    | .value flag text => pure (some (flag, String.ofList text))
    | _ => pure none
  let options ← joined.flags.foldlM Options.raise r.options
  let options ←
    match value? with
    | some (flag, text) => options.assign flag text
    | none => pure options
  let taken := match joined.finish with | .wants _ => true | _ => false
  return ({ r with options, justNamed := false }, taken)

def tokens (r : Reading) : List Token → Except Exit Reading
  | [] => .ok r
  | .operand text :: rest => (r.operand text).tokens rest
  | .unknown :: rest => { r with stray := true, justNamed := false }.tokens rest
  | .option flag short tail :: .operand text :: rest => do
    let (r, taken) ← r.option (← expand flag short tail) (some text)
    if taken then r.tokens rest else (r.operand text).tokens rest
  | .option flag short tail :: rest => do
    let (r, _) ← r.option (← expand flag short tail) none
    r.tokens rest

/-- The arguments after two hyphens.  Without any they may only follow the program's name. -/
def remainder (r : Reading) : Option (List String) → Reading
  | none => r
  | some args =>
    if r.named then { r with stray := r.stray || !r.justNamed || !args.isEmpty }
    else args.foldl operand r

def finish (r : Reading) : Except Exit Options :=
  if r.named ∧ ¬r.stray then .ok r.options else .error .fault

end Reading

def parse (args : List String) : Except Exit Options := do
  let (before, after) := splitAtHyphens args
  let tokens ← before.mapM token
  let r ← Reading.tokens ⟨Options.standard "", false, false, false⟩ tokens
  (r.remainder after).finish

def Options.settings (o : Options) : Settings where
  indexOverflow := some (o.indexOverflow.toSetting .int)
  renderer := some (o.renderer.toSetting .text)
  mute := some (o.mute.toSetting .int)
  scale := some (o.scale.toSetting .int)
  palette := some (o.palette.toSetting .text)
  keymap := some (o.keymap.toSetting .text)
  tone := some (o.tone.toSetting .real)
  debug := some (.bool o.debug)
  clockSpeed := some (o.clockSpeed.toSetting .int)

end Chip8.CommandLine
