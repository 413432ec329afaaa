/-!
# The program's name

What the program calls itself: in the caption and the titles of its window, and in the first line
that it prints.
-/

namespace Chip8.About

def name : String := "ChipSet8 Emulator"

def version : String := "V1.0.0"

def banner : String :=
  name ++ " " ++ version ++ " -- Copyright (C) 2022 Gregory Maynard-Hoare, "
    ++ "licensed under GNU Affero General Public License v3.0"

end Chip8.About
