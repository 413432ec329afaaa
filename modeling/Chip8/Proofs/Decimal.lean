import Chip8.Proofs.Numeral

/-!
# Integers written in base ten

An integer that was written out in base ten, with a minus in front if it is negative, is read as
itself, unless it has more digits than are read.
-/

namespace Chip8.Text

def decimalDigit (c : Char) : Nat := c.toNat - '0'.toNat

/-! ## Digits -/

/-- What can be checked for each decimal digit holds of all. -/
theorem of_isDigit (P : Char → Prop) (hall : ∀ n < 58, 48 ≤ n → P (Char.ofNat n)) {c : Char}
    (h : c.isDigit = true) : P c := by
  rw [Char.isDigit_iff_toNat] at h
  have hc := hall c.toNat (Nat.lt_succ_of_le h.2) h.1
  rwa [Char.ofNat_toNat] at hc

theorem digitValue?_of_isDigit {c : Char} (h : c.isDigit = true) :
    digitValue? 10 c = some (decimalDigit c) :=
  of_isDigit (fun c => digitValue? 10 c = some (decimalDigit c)) (by decide +kernel) h

theorem isBlank_of_isDigit {c : Char} (h : c.isDigit = true) : isBlank c = false :=
  of_isDigit (fun c => isBlank c = false) (by decide +kernel) h

theorem digits?_toDigits (n : Nat) :
    digits? 10 (Nat.toDigits 10 n) = some ((Nat.toDigits 10 n).map decimalDigit) := by
  apply digits?_eq_map Nat.toDigits_ne_nil
  intro c hc
  have hgap : c ≠ '_' := by
    rintro rfl
    exact Nat.underscore_not_in_toDigits hc
  exact ⟨hgap, digitValue?_of_isDigit (Nat.isDigit_of_mem_toDigits (by decide) (by decide) hc)⟩

theorem valueOfDigits_toDigits (n : Nat) :
    valueOfDigits 10 ((Nat.toDigits 10 n).map decimalDigit) = n :=
  calc valueOfDigits 10 ((Nat.toDigits 10 n).map decimalDigit)
      = Nat.ofDigitChars 10 (Nat.toDigits 10 n) 0 := List.foldl_map
    _ = n := Nat.ofDigitChars_ten_toDigits

/-! ## Integers -/

theorem toList_toString (n : Int) :
    (toString n).toList = (if n < 0 then ['-'] else []) ++ Nat.toDigits 10 n.natAbs := by
  rw [Int.toString_eq_repr, Int.repr_eq_if]
  by_cases hn : n < 0
  · have hneg : ¬0 ≤ n := by omega
    have habs : (-n).toNat = n.natAbs := by omega
    have hdigits : n.natAbs.repr.toList = Nat.toDigits 10 n.natAbs := by
      rw [Nat.repr_eq_ofList_toDigits, String.toList_ofList]
    rw [if_neg hneg, if_pos hn, habs, String.toList_append, hdigits]
    rfl
  · have hnonneg : 0 ≤ n := by omega
    have habs : n.toNat = n.natAbs := by omega
    rw [if_pos hnonneg, if_neg hn, habs, Nat.repr_eq_ofList_toDigits, String.toList_ofList]
    rfl

theorem isDigit_or_eq_of_mem_toString {n : Int} {c : Char} (hc : c ∈ (toString n).toList) :
    c = '-' ∨ c.isDigit = true := by
  rw [toList_toString, List.mem_append] at hc
  rcases hc with hsign | hdigit
  · split at hsign
    · exact Or.inl (List.mem_singleton.1 hsign)
    · cases hsign
  · exact Or.inr (Nat.isDigit_of_mem_toDigits (by decide) (by decide) hdigit)

theorem comma_not_mem_toString (n : Int) : ',' ∉ (toString n).toList := by
  intro hc
  rcases isDigit_or_eq_of_mem_toString hc with hminus | hdigit
  · exact absurd hminus (by decide)
  · exact absurd hdigit (by decide)

theorem splitSign_toString (n : Int) :
    splitSign (trimBlanks (toString n).toList) = (decide (n < 0), Nat.toDigits 10 n.natAbs) := by
  have hblank : ∀ c ∈ (toString n).toList, isBlank c = false := by
    intro c hc
    rcases isDigit_or_eq_of_mem_toString hc with rfl | hdigit
    · decide
    · exact isBlank_of_isDigit hdigit
  have hdigit : ∀ c ∈ Nat.toDigits 10 n.natAbs, c.isDigit = true :=
    fun c hc => Nat.isDigit_of_mem_toDigits (by decide) (by decide) hc
  rw [trimBlanks_eq_self hblank, toList_toString]
  by_cases hn : n < 0
  · rw [if_pos hn, decide_eq_true hn]
    rfl
  · rw [if_neg hn, decide_eq_false hn, List.nil_append]
    apply splitSign_eq_self
    · exact fun hminus => absurd (hdigit _ hminus) (by decide)
    · exact fun hplus => absurd (hdigit _ hplus) (by decide)

theorem signed_natAbs (n : Int) : Binary64.signed (decide (n < 0)) n.natAbs = n := by
  unfold Binary64.signed
  by_cases hn : n < 0
  · rw [if_pos (decide_eq_true hn)]
    omega
  · rw [if_neg (by simpa using hn)]
    omega

theorem decimalLength_le_iff {n : Int} :
    decimalLength n ≤ mostDecimalDigits ↔ n.natAbs < 10 ^ mostDecimalDigits :=
  Nat.length_toDigits_le_iff (by decide) (by decide)

theorem integer?_toString (n : Int) :
    integer? (toString n) = if n.natAbs < 10 ^ mostDecimalDigits then some n else none := by
  unfold integer?
  rw [splitSign_toString]
  dsimp only
  rw [digits?_toDigits, Option.bind_eq_bind, Option.bind_some, List.length_map,
    valueOfDigits_toDigits, ← decimalLength]
  by_cases hn : n.natAbs < 10 ^ mostDecimalDigits
  · rw [if_pos hn, if_neg (Nat.not_lt.2 (decimalLength_le_iff.2 hn))]
    exact congrArg some (signed_natAbs n)
  · rw [if_neg hn, if_pos (Nat.not_le.1 (mt decimalLength_le_iff.1 hn))]
    rfl

end Chip8.Text
