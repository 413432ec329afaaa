import Chip8.Instruction

/-!
# What a decoded word was

The word of an instruction that was decoded is the word that it was decoded from, as far as the
fields go.
-/

namespace Chip8.Instruction

variable {w : Word}

theorem low16_of_family {k : Nat} (hk : (w.family : Nat) = k) : 4096 * k + w.nnn = w.low16 := by
  rw [w.low16_eq, hk]

theorem byteWord_eq {k : Nat} (hk : (w.family : Nat) = k) :
    byteWord k w.x w.nn.toNat = w.low16 := by
  have hnnn := w.nnn_eq
  have hlow := low16_of_family hk
  unfold byteWord
  omega

theorem pairWord_eq {k n : Nat} (hk : (w.family : Nat) = k) (hn : (w.n : Nat) = n) :
    pairWord k w.x w.y n = w.low16 := by
  have hnn := w.nn_eq
  have hbyte := byteWord_eq hk
  unfold byteWord at hbyte
  unfold pairWord
  omega

theorem encode_of_ofArithmetic? {i : Instruction} (hk : (w.family : Nat) = 0x8)
    (h : ofArithmetic? w.x w.y w.n = some i) : i.encode w.y = w.low16 := by
  unfold ofArithmetic? at h
  split at h
  case h_10 => cases h
  all_goals
    rename_i hn
    cases h
    exact pairWord_eq hk hn

theorem encode_of_ofMiscellany? {i : Instruction} (hk : (w.family : Nat) = 0xF)
    (h : ofMiscellany? w.x w.nn = some i) : i.encode w.y = w.low16 := by
  unfold ofMiscellany? at h
  split at h
  case h_10 => cases h
  all_goals
    rename_i hn
    cases h
    simp only [encode, ← hn]
    exact byteWord_eq hk

/-- Decoding loses nothing of the sixteen bits: encoding brings them back. -/
theorem encode_of_ofWord? {i : Instruction} (h : ofWord? w = some i) :
    i.encode w.y = w.low16 := by
  unfold ofWord? at h
  split at h
  case h_1 =>
    split at h
    · rename_i hw
      cases h
      rw [hw]
      rfl
    split at h
    · rename_i hw
      cases h
      rw [hw]
      rfl
    · cases h
  case h_6 hk =>
    split at h
    · rename_i hn
      cases h
      exact pairWord_eq hk (congrArg Fin.val hn)
    · cases h
  case h_9 hk => exact encode_of_ofArithmetic? hk h
  case h_10 hk =>
    split at h
    · rename_i hn
      cases h
      exact pairWord_eq hk (congrArg Fin.val hn)
    · cases h
  case h_15 hk =>
    have hbyte := byteWord_eq hk
    split at h
    · rename_i hnn
      cases h
      rwa [hnn] at hbyte
    split at h
    · rename_i hnn
      cases h
      rwa [hnn] at hbyte
    · cases h
  case h_16 =>
    -- The fifteen other families are ruled out, one hypothesis each.
    have hk : (w.family : Nat) = 0xF := by
      have hlt := w.family.isLt
      simp only [imp_false] at *
      omega
    exact encode_of_ofMiscellany? hk h
  all_goals
    rename_i hk
    cases h
    first
    | exact byteWord_eq hk
    | exact pairWord_eq hk rfl
    | exact low16_of_family hk

theorem low16_of_le {n : Int} (h₀ : 0 ≤ n) (h : n ≤ 0xFFFF) : (Word.low16 n : Int) = n := by
  unfold Word.low16
  omega

theorem ofWord?_eq_ret_iff : ofWord? w = some .ret ↔ w = 0x00EE := by
  constructor
  · intro h
    have hlow := encode_of_ofWord? h
    have hfamily : (w.family : Nat) = 0 := by
      have := w.low16_eq
      simp only [encode] at hlow
      omega
    unfold ofWord? at h
    simp only [hfamily] at h
    split at h
    · cases h
    split at h
    · assumption
    · cases h
  · rintro rfl
    rfl

theorem ofWord?_eq_call_iff {n : Int} (h₀ : 0 ≤ n) (h : n ≤ 0xFFFF) :
    (∃ a, ofWord? n = some (.call a)) ↔ 0x2000 ≤ n ∧ n ≤ 0x2FFF := by
  have hlow := low16_of_le h₀ h
  constructor
  · rintro ⟨a, ha⟩
    have hencode := encode_of_ofWord? ha
    have := a.isLt
    simp only [encode] at hencode
    omega
  · intro hn
    have hfamily : (Word.family n : Nat) = 2 := by
      have := Word.low16_eq n
      have := (Word.nnn n).isLt
      omega
    refine ⟨Word.nnn n, ?_⟩
    unfold ofWord?
    simp only [hfamily]

end Chip8.Instruction
