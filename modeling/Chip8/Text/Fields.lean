/-!
# Comma-separated fields
-/

namespace Chip8.Text

/-- The stretches between commas: one more than there are commas. -/
def fields : List Char → List (List Char)
  | [] => [[]]
  | c :: rest =>
    if c = ',' then [] :: fields rest
    else
      match fields rest with
      | [] => [[c]]
      | field :: others => (c :: field) :: others

def commaFields (s : String) : List String := (fields s.toList).map String.ofList

theorem fields_ne_nil (cs : List Char) : fields cs ≠ [] := by
  cases cs with
  | nil => simp [fields]
  | cons c rest =>
    simp only [fields]
    split
    · simp
    · split <;> simp

theorem fields_of_not_mem {cs : List Char} (h : ',' ∉ cs) : fields cs = [cs] := by
  induction cs with
  | nil => rfl
  | cons c rest ih =>
    simp only [List.mem_cons, not_or] at h
    simp [fields, Ne.symm h.1, ih h.2]

theorem fields_append_comma {field : List Char} (h : ',' ∉ field) (rest : List Char) :
    fields (field ++ ',' :: rest) = field :: fields rest := by
  induction field with
  | nil => simp [fields]
  | cons c field ih =>
    simp only [List.mem_cons, not_or] at h
    simp [fields, Ne.symm h.1, ih h.2]

end Chip8.Text
