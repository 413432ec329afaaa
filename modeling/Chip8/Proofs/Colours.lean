import Chip8.Proofs.Frames
import Chip8.Proofs.Numeral

/-!
# Palettes of hex digits

Which texts are read as palettes.  Those that spell up to two colours in six hex digits each are,
and give these colours.  But six characters that are read as an integer in some other form pass as
well, and a colour below zero has no parts, so that no window is opened.
-/

namespace Chip8

namespace Text

theorem mem_fields_iff {cs : List Char} {c : Char} :
    (∃ field ∈ fields cs, c ∈ field) ↔ c ∈ cs ∧ c ≠ ',' := by
  induction cs with
  | nil => simp [fields]
  | cons a rest ih =>
    unfold fields
    by_cases ha : a = ','
    · rw [if_pos ha, List.exists_mem_cons_iff, ih, List.mem_cons]
      grind
    · rw [if_neg ha]
      cases hfields : fields rest with
      | nil => exact absurd hfields (fields_ne_nil rest)
      | cons field others =>
        rw [hfields, List.exists_mem_cons_iff] at ih
        dsimp only
        rw [List.exists_mem_cons_iff, List.mem_cons, List.mem_cons]
        grind

theorem mem_of_mem_commaFields {text field : String} {c : Char} (hfield : field ∈ commaFields text)
    (hc : c ∈ field.toList) : c ∈ text.toList := by
  obtain ⟨cs, hcs, rfl⟩ := List.mem_map.1 hfield
  rw [String.toList_ofList] at hc
  exact (mem_fields_iff.1 ⟨cs, hcs, hc⟩).1

theorem exists_mem_commaFields {text : String} {c : Char} (hc : c ∈ text.toList)
    (hcomma : c ≠ ',') : ∃ field ∈ commaFields text, c ∈ field.toList := by
  obtain ⟨cs, hcs, hmem⟩ := mem_fields_iff.2 ⟨hc, hcomma⟩
  refine ⟨String.ofList cs, List.mem_map_of_mem hcs, ?_⟩
  rwa [String.toList_ofList]

/-- A field of a text, or nothing if it has not so many. -/
def fieldAt (text : String) (i : Nat) : String := (commaFields text)[i]?.getD ""

theorem fieldAt_mem_or (text : String) (i : Nat) :
    fieldAt text i ∈ commaFields text ∨ fieldAt text i = "" := by
  unfold fieldAt
  cases hfield : (commaFields text)[i]? with
  | none => exact Or.inr rfl
  | some field => exact Or.inl (List.mem_of_getElem? hfield)

theorem mem_of_mem_fieldAt {text : String} {i : Nat} {c : Char} (hc : c ∈ (fieldAt text i).toList) :
    c ∈ text.toList := by
  rcases fieldAt_mem_or text i with hfield | hempty
  · exact mem_of_mem_commaFields hfield hc
  · rw [hempty] at hc
    cases hc

end Text

namespace Palette

open Text

def Plain (field : String) : Prop :=
  field.isEmpty = true ∨ field.length = 6 ∧ ∀ c ∈ field.toList, c ∈ hexCharacters

instance (field : String) : Decidable (Plain field) :=
  decidable_of_iff
    (field.isEmpty = true ∨
      field.length = 6 ∧ (field.toList.all fun c => decide (c ∈ hexCharacters)) = true)
    (by simp only [Plain, List.all_eq_true, decide_eq_true_eq])

/-- Up to two colours, background and foreground, are written in six hex digits each; any may be
left out. -/
def Documented (text : String) : Prop :=
  (commaFields text).length ≤ 2 ∧ ∀ field ∈ commaFields text, Plain field

instance (text : String) : Decidable (Documented text) := inferInstanceAs (Decidable (_ ∧ _))

def spelledColour (default : Int) (field : String) : Int :=
  if field.isEmpty then default else spelled field.toList

/-- The palette that a text spells; a field that is not there counts as empty. -/
def ofDigits (text : String) : Palette where
  background := spelledColour standard.background (fieldAt text 0)
  foreground := spelledColour standard.foreground (fieldAt text 1)

/-! ## Fields -/

theorem plain_empty : Plain "" := Or.inl rfl

theorem colour_of_plain {field : String} (h : Plain field) (default : Int) :
    colour default field = .ok (spelledColour default field) := by
  unfold colour spelledColour
  rcases h with hempty | ⟨hlength, hchars⟩
  · rw [if_pos hempty, if_pos hempty]
  · have hne : field.toList ≠ [] := by
      intro hnil
      have hzero : field.toList.length = 6 := hlength
      rw [hnil] at hzero
      cases hzero
    have hfull : ¬field.isEmpty = true := by simpa using hne
    rw [if_neg hfull, if_neg hfull, if_neg (not_not.2 hlength),
      hexInteger?_of_hexCharacters hne hchars]

theorem colour_cases {default n : Int} {field : String} (h : colour default field = .ok n) :
    field.isEmpty = true ∧ n = default ∨ field.length = 6 ∧ hexInteger? field = some n := by
  unfold colour at h
  split at h
  · rename_i hempty
    cases h
    exact Or.inl ⟨hempty, rfl⟩
  · split at h
    · cases h
    · rename_i hlength
      split at h
      · rename_i value hvalue
        cases h
        exact Or.inr ⟨not_not.1 hlength, hvalue⟩
      · cases h

theorem plain_of_colour {default n : Int} {field : String} (h : colour default field = .ok n)
    (hstray : ∀ c ∈ field.toList, ¬Stray c) : Plain field := by
  rcases colour_cases h with ⟨hempty, -⟩ | ⟨hlength, hvalue⟩
  · exact Or.inl hempty
  · exact Or.inr ⟨hlength, hexCharacters_of_hexInteger? hvalue hstray⟩

/-- No colour has more than 24 bits, and only after a minus is one below zero. -/
theorem colour_bound {default n : Int} {field : String} (h : colour default field = .ok n)
    (hdefault : 0 ≤ default ∧ default < 0x1000000) :
    n < 0x1000000 ∧ (n < 0 → '-' ∈ field.toList) := by
  rcases colour_cases h with ⟨-, rfl⟩ | ⟨hlength, hvalue⟩
  · exact ⟨hdefault.2, fun hneg => by omega⟩
  · obtain ⟨hbound, hminus⟩ := hexInteger?_bound hvalue
    rw [hlength] at hbound
    exact ⟨by omega, hminus⟩

theorem spelledColour_nonneg {default : Int} (hdefault : 0 ≤ default) (field : String) :
    0 ≤ spelledColour default field := by
  unfold spelledColour
  split
  · exact hdefault
  · exact Int.natCast_nonneg _

/-! ## Texts -/

theorem parse_eq (text : String) :
    parse text =
      if (commaFields text).length ≤ 2 then do
        let background ← colour standard.background (fieldAt text 0)
        let foreground ← colour standard.foreground (fieldAt text 1)
        return { background, foreground }
      else .error .tooMany := by
  unfold parse
  unfold fieldAt
  rcases commaFields text with _ | ⟨back, _ | ⟨fore, _ | ⟨other, others⟩⟩⟩
  · rfl
  · rfl
  · rfl
  · rw [if_neg (by simp)]

theorem parse_eq_ok_iff {text : String} {p : Palette} :
    parse text = .ok p ↔ (commaFields text).length ≤ 2 ∧
      colour standard.background (fieldAt text 0) = .ok p.background ∧
      colour standard.foreground (fieldAt text 1) = .ok p.foreground := by
  rw [parse_eq]
  by_cases hlength : (commaFields text).length ≤ 2
  · rw [if_pos hlength]
    cases colour standard.background (fieldAt text 0) with
    | error e => simp [bind, Except.bind]
    | ok background =>
      cases colour standard.foreground (fieldAt text 1) with
      | error e => simp [bind, Except.bind]
      | ok foreground =>
        obtain ⟨back, fore⟩ := p
        simp [bind, Except.bind, pure, Except.pure, hlength]
  · rw [if_neg hlength]
    simp [hlength]

theorem colour_ne_notText {default : Int} {field : String} {e : Error}
    (h : colour default field = .error e) : e ≠ .notText := by
  unfold colour at h
  split at h
  · cases h
  · split at h
    · cases h
      decide
    · split at h
      · cases h
      · cases h
        decide

theorem parse_ne_notText {text : String} {e : Error} (h : parse text = .error e) :
    e ≠ .notText := by
  rw [parse_eq] at h
  split at h
  · cases hback : colour standard.background (fieldAt text 0) with
    | error e' =>
      rw [hback] at h
      cases h
      exact colour_ne_notText hback
    | ok background =>
      rw [hback] at h
      cases hfore : colour standard.foreground (fieldAt text 1) with
      | error e' =>
        rw [hfore] at h
        cases h
        exact colour_ne_notText hfore
      | ok foreground =>
        rw [hfore] at h
        cases h
  · cases h
    decide

theorem parse_bound {text : String} {p : Palette} (h : parse text = .ok p) (lit : Bool) :
    p.entry lit < 0x1000000 ∧ (p.entry lit < 0 → '-' ∈ text.toList) := by
  obtain ⟨-, hback, hfore⟩ := parse_eq_ok_iff.1 h
  cases lit with
  | false =>
    obtain ⟨htop, hminus⟩ := colour_bound hback (by decide)
    exact ⟨htop, fun hneg => mem_of_mem_fieldAt (hminus hneg)⟩
  | true =>
    obtain ⟨htop, hminus⟩ := colour_bound hfore (by decide)
    exact ⟨htop, fun hneg => mem_of_mem_fieldAt (hminus hneg)⟩

theorem plain_fieldAt {text : String} (h : Documented text) (i : Nat) : Plain (fieldAt text i) := by
  rcases fieldAt_mem_or text i with hfield | hempty
  · exact h.2 _ hfield
  · rw [hempty]
    exact plain_empty

theorem parse_of_documented {text : String} (h : Documented text) :
    parse text = .ok (ofDigits text) := by
  have hback := colour_of_plain (plain_fieldAt h 0) standard.background
  have hfore := colour_of_plain (plain_fieldAt h 1) standard.foreground
  exact parse_eq_ok_iff.2 ⟨h.1, hback, hfore⟩

theorem not_stray_of_documented {text : String} (h : Documented text) {c : Char}
    (hc : c ∈ text.toList) : ¬Stray c := by
  by_cases hcomma : c = ','
  · subst hcomma
    decide +kernel
  · obtain ⟨field, hfield, hmem⟩ := exists_mem_commaFields hc hcomma
    rcases h.2 field hfield with hempty | ⟨-, hchars⟩
    · rw [String.isEmpty_iff.1 hempty] at hmem
      cases hmem
    · exact not_stray_of_mem (hchars c hmem)

theorem documented_of_parse {text : String} {p : Palette} (h : parse text = .ok p)
    (hstray : ∀ c ∈ text.toList, ¬Stray c) : Documented text := by
  obtain ⟨hlength, hback, hfore⟩ := parse_eq_ok_iff.1 h
  have hclean : ∀ i, ∀ c ∈ (fieldAt text i).toList, ¬Stray c :=
    fun i c hc => hstray c (mem_of_mem_fieldAt hc)
  refine ⟨hlength, fun field hfield => ?_⟩
  obtain ⟨i, hi, hget⟩ := List.mem_iff_getElem.1 hfield
  have hat : fieldAt text i = field := by
    unfold fieldAt
    rw [List.getElem?_eq_getElem hi, hget]
    rfl
  rw [← hat]
  obtain rfl | rfl : i = 0 ∨ i = 1 := by omega
  · exact plain_of_colour hback (hclean 0)
  · exact plain_of_colour hfore (hclean 1)

/-! ## Windows -/

/-- From a text a window of any width is opened, by a host that takes every call, and any window
that is opened has the colours of a palette. -/
def Opens (p : Palette) (text : String) : Prop :=
  ∀ scale, (Window.width? scale).isSome = true →
    (∃ w calls, Window.new [] scale (.text text) = (.ok w, calls)) ∧
      ∀ answers w calls, Window.new answers scale (.text text) = (.ok w, calls) →
        ∀ lit, (w.colour lit).value = p.entry lit

theorem opens_of_parse {text : String} {p : Palette} (h : parse text = .ok p)
    (hnonneg : ∀ lit, 0 ≤ p.entry lit) : p.Opens text := by
  intro scale hscale
  have hvalue : ofValue (.text text) = .ok p := h
  have hrange : ∀ lit, 0 ≤ p.entry lit ∧ p.entry lit < 0x1000000 :=
    fun lit => ⟨hnonneg lit, (parse_bound h lit).1⟩
  exact ⟨Window.exists_new_eq hvalue (hrange false) (hrange true) hscale,
    fun answers w calls hnew => (Window.of_new hvalue hnew).1⟩

theorem ofColour?_of_neg {colour : Int} (h : colour < 0) : Rgb.ofColour? colour = none := by
  unfold Rgb.ofColour?
  rw [if_neg (by omega)]

theorem colourRange_of_neg {text : String} {p : Palette} (h : parse text = .ok p) {lit : Bool}
    (hneg : p.entry lit < 0) (answers : Answers) (scale : HostValue) :
    Window.new answers scale (.text text) = (.error .colourRange, []) := by
  have hvalue : ofValue (.text text) = .ok p := h
  unfold Window.new
  rw [hvalue]
  dsimp only
  cases lit with
  | false => rw [ofColour?_of_neg (show p.background < 0 from hneg)]
  | true =>
    rw [ofColour?_of_neg (show p.foreground < 0 from hneg)]
    cases Rgb.ofColour? p.background <;> rfl

/-- The documented texts are those without stray characters that are read as palettes.  They give
the colours that their hex digits spell, in which a window is opened.  If a text is not read the
error tells what is wrong with it.  But with stray characters others are read as well, and if one of
their colours is below zero, for which there must be a minus, no window is opened. -/
theorem documented_unless_stray (text : String) :
    (Documented text ↔ (∃ p, parse text = .ok p) ∧ ∀ c ∈ text.toList, ¬Stray c) ∧
      (Documented text → parse text = .ok (ofDigits text) ∧ (ofDigits text).Opens text ∧
        ∀ lit, 0 ≤ (ofDigits text).entry lit ∧ (ofDigits text).entry lit < 0x1000000) ∧
      (∀ e, parse text = .error e → e ≠ .notText) ∧
      ∀ p, parse text = .ok p →
        ((∀ lit, 0 ≤ p.entry lit) → p.Opens text) ∧
        ∀ lit, p.entry lit < 0 → '-' ∈ text.toList ∧
          ∀ answers scale, Window.new answers scale (.text text) = (.error .colourRange, []) := by
  have hnonneg : ∀ lit, 0 ≤ (ofDigits text).entry lit := by
    intro lit
    cases lit <;> exact spelledColour_nonneg (by decide) _
  refine ⟨⟨?_, ?_⟩, ?_, fun e => parse_ne_notText, ?_⟩
  · exact fun h => ⟨⟨_, parse_of_documented h⟩, fun c hc => not_stray_of_documented h hc⟩
  · rintro ⟨⟨p, hp⟩, hstray⟩
    exact documented_of_parse hp hstray
  · intro h
    have hparse := parse_of_documented h
    exact ⟨hparse, opens_of_parse hparse hnonneg,
      fun lit => ⟨hnonneg lit, (parse_bound hparse lit).1⟩⟩
  · intro p hp
    refine ⟨opens_of_parse hp, fun lit hneg => ⟨(parse_bound hp lit).2 hneg, ?_⟩⟩
    exact colourRange_of_neg hp hneg

/-- Two colours of hex digits, and a background alone. -/
theorem documented_black_and_green :
    parse "000000,33FF66" = .ok ⟨0x000000, 0x33FF66⟩ ∧
      (∃ w calls, Window.new [] .null (.text "000000,33FF66") = (.ok w, calls) ∧
        (w.colour false).value = 0x000000 ∧ (w.colour true).value = 0x33FF66) ∧
      parse "33ff66" = .ok ⟨0x33FF66, 0xDDDDDD⟩ := by
  have hboth : Documented "000000,33FF66" := by decide +kernel
  have hone : Documented "33ff66" := by decide +kernel
  have hcolours : ofDigits "000000,33FF66" = ⟨0x000000, 0x33FF66⟩ := by decide +kernel
  have hbackground : ofDigits "33ff66" = ⟨0x33FF66, 0xDDDDDD⟩ := by decide +kernel
  obtain ⟨hparse, hopens, -⟩ := (documented_unless_stray "000000,33FF66").2.1 hboth
  obtain ⟨hparseOne, -⟩ := (documented_unless_stray "33ff66").2.1 hone
  rw [hcolours] at hparse hopens
  rw [hbackground] at hparseOne
  obtain ⟨⟨w, calls, hnew⟩, hcolour⟩ := hopens .null rfl
  have hvalue := hcolour [] w calls hnew
  exact ⟨hparse, ⟨w, calls, hnew, hvalue false, hvalue true⟩, hparseOne⟩

/-- Six characters with a minus among them are read as a colour that no window has. -/
theorem minus_passes_as_colour :
    ¬Documented "-12345" ∧ parse "-12345" = .ok ⟨-0x12345, 0xDDDDDD⟩ ∧
      Window.new [] .null (.text "-12345") = (.error .colourRange, []) := by
  have hparse : parse "-12345" = .ok ⟨-0x12345, 0xDDDDDD⟩ := by rfl
  have hneg : (⟨-0x12345, 0xDDDDDD⟩ : Palette).entry false < 0 := by decide
  have hdocumented : ¬Documented "-12345" := by decide +kernel
  exact ⟨hdocumented, hparse, colourRange_of_neg hparse hneg [] .null⟩

end Palette

end Chip8
