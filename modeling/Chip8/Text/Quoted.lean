import Chip8.Text.Hex
import Chip8.Text.Printable

/-!
# Quoted text

A text between quotes, with escapes for the quote, the backslash and whatever is not printable.
Single quotes are used unless the text holds a single quote and no double one.
-/

namespace Chip8.Text

def escaped (quote c : Char) : String :=
  if c = quote ∨ c = '\\' then String.ofList ['\\', c]
  else if c = '\t' then "\\t"
  else if c = '\n' then "\\n"
  else if c = '\r' then "\\r"
  else if isPrintable c then String.singleton c
  else if c.toNat < 0x100 then "\\x" ++ hex 2 c.toNat
  else if c.toNat < 0x10000 then "\\u" ++ hex 4 c.toNat
  else "\\U" ++ hex 8 c.toNat

def quoteFor (cs : List Char) : Char :=
  if cs.contains '\'' && !cs.contains '"' then '"' else '\''

def quoted (s : String) : String :=
  let quote := quoteFor s.toList
  String.singleton quote ++ String.join (s.toList.map (escaped quote)) ++ String.singleton quote

end Chip8.Text
