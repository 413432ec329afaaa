import Mathlib.Data.List.TakeWhile
import Mathlib.Data.Nat.Digits.Lemmas
import Chip8.Text.Numeral

/-!
# Numerals in base sixteen

What is read as an integer in base sixteen.  Hex digits alone spell the number that they should.
Other numerals have a sign, a mark, an underscore, blanks around them or digits of another script,
and no further characters; none spells a number of more digits than it has characters.
-/

namespace Chip8.Text

def hexCharacters : List Char := "0123456789abcdefABCDEF".toList

def hexValue (c : Char) : Nat :=
  if c.toNat < 'A'.toNat then c.toNat - '0'.toNat
  else if c.toNat < 'a'.toNat then c.toNat - 'A'.toNat + 10
  else c.toNat - 'a'.toNat + 10

def spelled (cs : List Char) : Nat := Nat.ofDigits 16 (cs.map hexValue).reverse

/-- A character of numerals that is no hex digit: of a sign, a mark or a gap, a blank, or a decimal
digit of another script. -/
def Stray (c : Char) : Prop :=
  c ∈ ['+', '-', '_', 'x', 'X'] ∨ isBlank c = true ∨
    (decimalValue? c).isSome = true ∧ c ∉ hexCharacters

instance (c : Char) : Decidable (Stray c) := inferInstanceAs (Decidable (_ ∨ _ ∨ _ ∧ _))

/-! ## Characters -/

/-- What can be checked for each hex digit holds of all. -/
theorem of_mem_hexCharacters (P : Char → Prop) [DecidablePred P]
    (hall : (hexCharacters.all fun c => decide (P c)) = true) {c : Char}
    (h : c ∈ hexCharacters) : P c :=
  of_decide_eq_true (List.all_eq_true.1 hall c h)

theorem digitValue?_of_mem {c : Char} (h : c ∈ hexCharacters) :
    digitValue? 16 c = some (hexValue c) :=
  of_mem_hexCharacters (fun c => digitValue? 16 c = some (hexValue c)) (by decide +kernel) h

theorem not_stray_of_mem {c : Char} (h : c ∈ hexCharacters) : ¬Stray c :=
  of_mem_hexCharacters (fun c => ¬Stray c) (by decide +kernel) h

theorem mem_hexCharacters_or_of_digitValue? {c : Char} (h : (digitValue? 16 c).isSome = true) :
    c ∈ hexCharacters ∨ (decimalValue? c).isSome = true := by
  by_cases hlatin : c.toNat ≤ 'z'.toNat
  · -- Up to the last Latin letter all characters are tried.
    have hall : ∀ n < 123, (digitValue? 16 (Char.ofNat n)).isSome = true →
        Char.ofNat n ∈ hexCharacters := by decide +kernel
    have hc := hall c.toNat (Nat.lt_succ_of_le hlatin)
    rw [Char.ofNat_toNat] at hc
    exact Or.inl (hc h)
  · have hlower : ¬('a' ≤ c ∧ c ≤ 'z') := fun hc => hlatin (Char.le_def.1 hc.2)
    have hupper : ¬('A' ≤ c ∧ c ≤ 'Z') :=
      fun hc => hlatin ((Char.le_def.1 hc.2).trans (by decide : 'Z'.toNat ≤ 'z'.toNat))
    unfold digitValue? at h
    rw [if_neg hlower, if_neg hupper] at h
    exact Or.inr (Option.isSome_of_isSome_filter _ _ h)

theorem mem_hexCharacters_of_not_stray {c : Char} (hstray : ¬Stray c)
    (h : c = '_' ∨ (digitValue? 16 c).isSome = true) : c ∈ hexCharacters := by
  rcases h with rfl | hvalue
  · exact absurd (Or.inl (by decide)) hstray
  · rcases mem_hexCharacters_or_of_digitValue? hvalue with hc | hdecimal
    · exact hc
    · by_contra hc
      exact hstray (Or.inr (Or.inr ⟨hdecimal, hc⟩))

/-! ## Digits -/

theorem valueOfDigits_eq (base : Nat) (ds : List Nat) :
    valueOfDigits base ds = Nat.ofDigits base ds.reverse := by
  unfold valueOfDigits
  induction ds using List.reverseRecOn with
  | nil => rfl
  | append_singleton rest d ih =>
    rw [List.foldl_concat, ih, List.reverse_append, List.reverse_singleton, List.singleton_append,
      Nat.ofDigits_cons]
    simp [Nat.add_comm]

theorem valueOfDigits_lt {base : Nat} (hbase : 1 < base) {ds : List Nat}
    (hds : ∀ d ∈ ds, d < base) : valueOfDigits base ds < base ^ ds.length := by
  rw [valueOfDigits_eq, ← List.length_reverse]
  apply Nat.ofDigits_lt_base_pow_length hbase
  intro d hd
  exact hds d (List.mem_reverse.1 hd)

theorem of_digits?_eq_some {base : Nat} {cs : List Char} {ds : List Nat}
    (h : digits? base cs = some ds) :
    ds.length ≤ cs.length ∧ (∀ d ∈ ds, d < base) ∧
      ∀ c ∈ cs, c = '_' ∨ (digitValue? base c).isSome = true := by
  induction cs using digits?.induct generalizing ds with
  | case1 => cases h
  | case2 c =>
    obtain ⟨d, hd, rfl⟩ := Option.map_eq_some_iff.1 h
    have hlt := digitValue?_lt hd
    simp [hd, hlt]
  | case3 c rest ih =>
    rw [digits?] at h
    obtain ⟨d, hd, h⟩ := Option.bind_eq_some_iff.1 h
    obtain ⟨others, hrest, h⟩ := Option.bind_eq_some_iff.1 h
    cases h
    obtain ⟨hlength, hbound, hchars⟩ := ih hrest
    have hlt := digitValue?_lt hd
    refine ⟨Nat.succ_le_succ (Nat.le_succ_of_le hlength), ?_, ?_⟩
    · exact List.forall_mem_cons.2 ⟨hlt, hbound⟩
    · refine List.forall_mem_cons.2 ⟨Or.inr ?_, List.forall_mem_cons.2 ⟨Or.inl rfl, hchars⟩⟩
      rw [hd]
      rfl
  | case4 c rest hnil hgap ih =>
    rw [digits?.eq_4 base c rest hnil hgap] at h
    obtain ⟨d, hd, h⟩ := Option.bind_eq_some_iff.1 h
    obtain ⟨others, hrest, h⟩ := Option.bind_eq_some_iff.1 h
    cases h
    obtain ⟨hlength, hbound, hchars⟩ := ih hrest
    have hlt := digitValue?_lt hd
    refine ⟨Nat.succ_le_succ hlength, List.forall_mem_cons.2 ⟨hlt, hbound⟩, ?_⟩
    refine List.forall_mem_cons.2 ⟨Or.inr ?_, hchars⟩
    rw [hd]
    rfl

theorem digits?_eq_map {base : Nat} {value : Char → Nat} {cs : List Char} (hne : cs ≠ [])
    (h : ∀ c ∈ cs, c ≠ '_' ∧ digitValue? base c = some (value c)) :
    digits? base cs = some (cs.map value) := by
  induction cs using digits?.induct with
  | case1 => exact absurd rfl hne
  | case2 c => rw [digits?, (h c List.mem_cons_self).2]; rfl
  | case3 c rest ih =>
    have hgap := h '_' (List.mem_cons_of_mem _ List.mem_cons_self)
    exact absurd rfl hgap.1
  | case4 c rest hnil hgap ih =>
    obtain ⟨hc, hrest⟩ := List.forall_mem_cons.1 h
    rw [digits?.eq_4 base c rest hnil hgap, hc.2, ih hnil hrest]
    rfl

theorem digits?_of_hexCharacters {cs : List Char} (hne : cs ≠ [])
    (h : ∀ c ∈ cs, c ∈ hexCharacters) : digits? 16 cs = some (cs.map hexValue) := by
  apply digits?_eq_map hne
  intro c hc
  have hgap : c ≠ '_' := by
    rintro rfl
    exact absurd (h '_' hc) (by decide)
  exact ⟨hgap, digitValue?_of_mem (h c hc)⟩

/-! ## Blanks, signs and marks -/

theorem length_trimBlanks_le (cs : List Char) : (trimBlanks cs).length ≤ cs.length := by
  unfold trimBlanks
  rw [List.length_reverse]
  refine (List.length_dropWhile_le _ _).trans ?_
  rw [List.length_reverse]
  exact List.length_dropWhile_le _ _

theorem mem_of_mem_trimBlanks {cs : List Char} {c : Char} (h : c ∈ trimBlanks cs) : c ∈ cs := by
  unfold trimBlanks at h
  rw [List.mem_reverse] at h
  have hreverse := (List.dropWhile_sublist _).subset h
  rw [List.mem_reverse] at hreverse
  exact (List.dropWhile_sublist _).subset hreverse

theorem trimBlanks_eq_self {cs : List Char} (h : ∀ c ∈ cs, isBlank c = false) :
    trimBlanks cs = cs := by
  have hdrop : ∀ cs : List Char, (∀ c ∈ cs, isBlank c = false) → cs.dropWhile isBlank = cs := by
    intro cs hcs
    rw [List.dropWhile_eq_self_iff]
    intro hlength
    rw [hcs _ (List.getElem_mem hlength)]
    exact Bool.false_ne_true
  unfold trimBlanks
  rw [hdrop cs h, hdrop cs.reverse fun c hc => h c (List.mem_reverse.1 hc), List.reverse_reverse]

theorem length_splitSign_le (cs : List Char) : (splitSign cs).2.length ≤ cs.length := by
  unfold splitSign
  split <;> simp

theorem mem_of_splitSign {cs : List Char} (h : (splitSign cs).1 = true) : '-' ∈ cs := by
  unfold splitSign at h
  split at h
  · exact List.mem_cons_self
  · cases h
  · cases h

theorem splitSign_eq_self {cs : List Char} (hminus : '-' ∉ cs) (hplus : '+' ∉ cs) :
    splitSign cs = (false, cs) := by
  unfold splitSign
  split
  · exact absurd List.mem_cons_self hminus
  · exact absurd List.mem_cons_self hplus
  · rfl

theorem length_dropHexMark_le (cs : List Char) : (dropHexMark cs).length ≤ cs.length := by
  unfold dropHexMark
  split
  · split
    · split <;> (simp only [List.length_cons]; omega)
    · exact le_rfl
  · exact le_rfl

theorem dropHexMark_eq_self {cs : List Char} (hlower : 'x' ∉ cs) (hupper : 'X' ∉ cs) :
    dropHexMark cs = cs := by
  unfold dropHexMark
  split
  · rename_i zero mark rest
    rw [if_neg]
    rintro ⟨-, rfl | rfl⟩
    · exact hlower (List.mem_cons_of_mem _ List.mem_cons_self)
    · exact hupper (List.mem_cons_of_mem _ List.mem_cons_self)
  · rfl

/-! ## Integers -/

theorem exists_of_hexInteger? {text : String} {n : Int} (h : hexInteger? text = some n) :
    ∃ ds, digits? 16 (dropHexMark (splitSign (trimBlanks text.toList)).2) = some ds ∧
      n = Binary64.signed (splitSign (trimBlanks text.toList)).1 (valueOfDigits 16 ds) := by
  unfold hexInteger? at h
  obtain ⟨ds, hds, h⟩ := Option.bind_eq_some_iff.1 h
  cases h
  exact ⟨ds, hds, rfl⟩

/-- From characters none of which is stray neither blanks nor a sign nor a mark are taken off. -/
theorem bare_of_not_stray {cs : List Char} (h : ∀ c ∈ cs, ¬Stray c) :
    splitSign (trimBlanks cs) = (false, cs) ∧ dropHexMark cs = cs := by
  have hblank : ∀ c ∈ cs, isBlank c = false := by
    intro c hc
    rw [Bool.eq_false_iff]
    exact fun hblank => h c hc (Or.inr (Or.inl hblank))
  have habsent : ∀ c ∈ ['+', '-', '_', 'x', 'X'], c ∉ cs := fun c hc hmem => h c hmem (Or.inl hc)
  rw [trimBlanks_eq_self hblank]
  exact ⟨splitSign_eq_self (habsent _ (by decide)) (habsent _ (by decide)),
    dropHexMark_eq_self (habsent _ (by decide)) (habsent _ (by decide))⟩

theorem hexInteger?_of_hexCharacters {text : String} (hne : text.toList ≠ [])
    (h : ∀ c ∈ text.toList, c ∈ hexCharacters) :
    hexInteger? text = some (spelled text.toList : Int) := by
  obtain ⟨hsign, hmark⟩ := bare_of_not_stray fun c hc => not_stray_of_mem (h c hc)
  unfold hexInteger?
  rw [hsign]
  dsimp only
  rw [hmark, digits?_of_hexCharacters hne h]
  change some (Binary64.signed false (valueOfDigits 16 _)) = _
  rw [valueOfDigits_eq]
  rfl

theorem hexCharacters_of_hexInteger? {text : String} {n : Int} (h : hexInteger? text = some n)
    (hstray : ∀ c ∈ text.toList, ¬Stray c) : ∀ c ∈ text.toList, c ∈ hexCharacters := by
  obtain ⟨hsign, hmark⟩ := bare_of_not_stray hstray
  obtain ⟨ds, hds, -⟩ := exists_of_hexInteger? h
  rw [hsign] at hds
  dsimp only at hds
  rw [hmark] at hds
  obtain ⟨-, -, hchars⟩ := of_digits?_eq_some hds
  exact fun c hc => mem_hexCharacters_of_not_stray (hstray c hc) (hchars c hc)

/-- A number has no more digits than its text has characters, and is negative only after a minus. -/
theorem hexInteger?_bound {text : String} {n : Int} (h : hexInteger? text = some n) :
    n.natAbs < 16 ^ text.length ∧ (n < 0 → '-' ∈ text.toList) := by
  obtain ⟨ds, hds, rfl⟩ := exists_of_hexInteger? h
  obtain ⟨hlength, hbound, -⟩ := of_digits?_eq_some hds
  have hchars : ds.length ≤ text.length := calc
    ds.length ≤ (dropHexMark (splitSign (trimBlanks text.toList)).2).length := hlength
    _ ≤ (splitSign (trimBlanks text.toList)).2.length := length_dropHexMark_le _
    _ ≤ (trimBlanks text.toList).length := length_splitSign_le _
    _ ≤ text.length := length_trimBlanks_le _
  have hvalue := valueOfDigits_lt (by decide) hbound
  have hpower : 16 ^ ds.length ≤ 16 ^ text.length := Nat.pow_le_pow_right (by decide) hchars
  unfold Binary64.signed
  cases hsign : (splitSign (trimBlanks text.toList)).1 with
  | false => exact ⟨by simp; omega, fun hneg => absurd hneg (by simp)⟩
  | true => exact ⟨by simp; omega, fun _ => mem_of_mem_trimBlanks (mem_of_splitSign hsign)⟩

end Chip8.Text
