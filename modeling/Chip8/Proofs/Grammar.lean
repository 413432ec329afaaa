import Chip8.Proofs.Decoding
import Chip8.Proofs.Mnemonic

/-!
# The words that stand for instructions

Which integers decode, whatever their size and sign.  Two words stand for an instruction just as
they are; of all others the low sixteen bits decide, family by family.  Every instruction is what
the word that it is encoded as decodes to.
-/

namespace Chip8

namespace Word

inductive Legal (w : Word) : Prop
  | clear (hw : w = 0x00E0)
  | ret (hw : w = 0x00EE)
  | single (hfamily : (w.family : Nat) ∈ [0x1, 0x2, 0x3, 0x4, 0x6, 0x7, 0xA, 0xB, 0xC, 0xD])
  | comparison (hfamily : (w.family : Nat) ∈ [0x5, 0x9]) (hn : w.n = 0x0)
  | arithmetic (hfamily : (w.family : Nat) = 0x8)
      (hn : (w.n : Nat) ∈ [0x0, 0x1, 0x2, 0x3, 0x4, 0x5, 0x6, 0x7, 0xE])
  | key (hfamily : (w.family : Nat) = 0xE) (hnn : w.nn ∈ [0x9E, 0xA1])
  | miscellany (hfamily : (w.family : Nat) = 0xF)
      (hnn : w.nn.toNat ∈ [0x07, 0x0A, 0x15, 0x18, 0x1E, 0x29, 0x33, 0x55, 0x65])

variable {w w₁ w₂ : Word}

theorem emod_eq (w : Int) : w % 65536 = 4096 * (family w : Nat) + (nnn w : Nat) := by
  have hlow := low16_eq w
  unfold low16 at hlow
  omega

theorem fields_congr (h : w₁.low16 = w₂.low16) :
    w₁.family = w₂.family ∧ w₁.x = w₂.x ∧ w₁.y = w₂.y ∧ w₁.n = w₂.n ∧ w₁.nn = w₂.nn ∧
      w₁.nnn = w₂.nnn := by
  simp only [family, x, y, n, nn, nnn, h, and_self]

theorem fields_of_pairWord {f c : Nat} {a b : Nibble} (h : w.low16 = Instruction.pairWord f a b c)
    (hc : c < 16) : (w.family : Nat) = f ∧ w.x = a ∧ w.y = b ∧ (w.n : Nat) = c := by
  unfold Instruction.pairWord at h
  simp only [family, x, y, n, Nibble.ofNat, Fin.ext_iff]
  omega

theorem fields_of_byteWord {f b : Nat} {a : Nibble} (h : w.low16 = Instruction.byteWord f a b)
    (hb : b < 256) : (w.family : Nat) = f ∧ w.x = a ∧ w.nn.toNat = b := by
  unfold Instruction.byteWord at h
  simp only [family, x, Nibble.ofNat, Fin.ext_iff, toNat_nn]
  omega

theorem fields_of_target {base : Nat} {a : Address} (h : w.low16 = base + a)
    (hbase : base % 4096 = 0) : (w.family : Nat) = base / 4096 ∧ w.nnn = a := by
  simp only [family, nnn, Fin.ext_iff]
  omega

end Word

namespace Instruction

variable {w w₁ w₂ : Word} {i : Instruction}

/-! ## Legal words -/

theorem exists_ofArithmetic?_iff {x y n : Nibble} :
    (∃ i, ofArithmetic? x y n = some i) ↔
      (n : Nat) ∈ [0x0, 0x1, 0x2, 0x3, 0x4, 0x5, 0x6, 0x7, 0xE] := by
  unfold ofArithmetic?
  split <;> simp_all

theorem exists_ofMiscellany?_iff {x : Nibble} {nn : UInt8} :
    (∃ i, ofMiscellany? x nn = some i) ↔
      nn.toNat ∈ [0x07, 0x0A, 0x15, 0x18, 0x1E, 0x29, 0x33, 0x55, 0x65] := by
  unfold ofMiscellany?
  split <;> simp_all

theorem legal_of_ofWord? (h : ofWord? w = some i) : w.Legal := by
  unfold ofWord? at h
  split at h
  case h_1 =>
    split at h
    · exact .clear ‹_›
    split at h
    · exact .ret ‹_›
    · cases h
  case h_6 hk | h_10 hk =>
    split at h
    · exact .comparison (by simp [hk]) ‹_›
    · cases h
  case h_9 hk => exact .arithmetic hk (exists_ofArithmetic?_iff.1 ⟨i, h⟩)
  case h_15 hk =>
    split at h
    · exact .key hk (by simp [*])
    split at h
    · exact .key hk (by simp [*])
    · cases h
  case h_16 =>
    have hk : (w.family : Nat) = 0xF := by
      have hlt := w.family.isLt
      simp only [imp_false] at *
      omega
    exact .miscellany hk (exists_ofMiscellany?_iff.1 ⟨i, h⟩)
  all_goals
    rename_i hk
    exact .single (by simp [hk])

theorem exists_of_legal (h : w.Legal) : ∃ i, ofWord? w = some i := by
  cases h with
  | clear hw => exact ⟨.clear, by rw [hw]; rfl⟩
  | ret hw => exact ⟨.ret, by rw [hw]; rfl⟩
  | single hfamily =>
    simp only [List.mem_cons, List.not_mem_nil, or_false] at hfamily
    unfold ofWord?
    rcases hfamily with hk | hk | hk | hk | hk | hk | hk | hk | hk | hk <;>
      simp only [hk, Option.some.injEq, exists_eq']
  | comparison hfamily hn =>
    simp only [List.mem_cons, List.not_mem_nil, or_false] at hfamily
    unfold ofWord?
    rcases hfamily with hk | hk <;> simp only [hk, hn, if_true, Option.some.injEq, exists_eq']
  | arithmetic hk hn =>
    unfold ofWord?
    simp only [hk, exists_ofArithmetic?_iff, hn]
  | key hk hnn =>
    simp only [List.mem_cons, List.not_mem_nil, or_false] at hnn
    unfold ofWord?
    rcases hnn with hnn | hnn <;> simp [hk, hnn]
  | miscellany hk hnn =>
    unfold ofWord?
    simp only [hk, exists_ofMiscellany?_iff, hnn]

theorem exists_ofWord?_iff : (∃ i, ofWord? w = some i) ↔ w.Legal :=
  ⟨fun ⟨_, h⟩ => legal_of_ofWord? h, exists_of_legal⟩

instance (w : Word) : Decidable w.Legal :=
  decidable_of_iff ((ofWord? w).isSome = true) (Option.isSome_iff_exists.trans exists_ofWord?_iff)

theorem ofWord?_congr (h : w₁.low16 = w₂.low16) (hfamily : (w₁.family : Nat) ≠ 0) :
    ofWord? w₁ = ofWord? w₂ := by
  obtain ⟨hf, hx, hy, hn, hnn, hnnn⟩ := Word.fields_congr h
  unfold ofWord?
  rw [← hf, hx, hy, hn, hnn, hnnn]
  split <;> first | contradiction | rfl

/-! ## Encoded instructions -/

theorem encode_le (i : Instruction) (spare : Nibble) : i.encode spare ≤ 0xFFFF := by
  cases i with
  | skipEqByte x b | skipNeByte x b | loadByte x b | addByte x b | random x b =>
    have hb := b.toNat_lt
    simp only [encode, byteWord]
    omega
  | _ =>
    simp only [encode, pairWord, byteWord]
    omega

theorem low16_encode (i : Instruction) (spare : Nibble) :
    Word.low16 (i.encode spare) = i.encode spare := by
  have hle := i.encode_le spare
  have hlow := low16_of_le (Int.natCast_nonneg (i.encode spare)) (by omega)
  omega

theorem ofWord?_encode (i : Instruction) (spare : Nibble) :
    ofWord? (i.encode spare : Nat) = some i := by
  have hlow := i.low16_encode spare
  cases i with
  | clear =>
    change ofWord? 0x00E0 = _
    rfl
  | ret =>
    change ofWord? 0x00EE = _
    rfl
  | jump a | call a | loadIndex a | jumpOffset a =>
    obtain ⟨hf, ha⟩ := Word.fields_of_target hlow rfl
    simp only [ofWord?, hf, ha, Nat.reduceDiv]
  | skipEqByte x b | skipNeByte x b | loadByte x b | addByte x b | random x b =>
    obtain ⟨hf, hx, hb⟩ := Word.fields_of_byteWord hlow b.toNat_lt
    simp only [ofWord?, hf, hx, UInt8.toNat_inj.1 hb]
  | skipPressed x | skipReleased x =>
    obtain ⟨hf, hx, hb⟩ := Word.fields_of_byteWord hlow (by decide)
    simp [ofWord?, hf, hx, ← UInt8.toNat_inj, hb]
  | readDelay x | awaitKey x | setDelay x | setSound x | addIndex x | loadGlyph x | storeDecimal x
  | storeRegisters x | loadRegisters x =>
    obtain ⟨hf, hx, hb⟩ := Word.fields_of_byteWord hlow (by decide)
    simp only [ofWord?, ofMiscellany?, hf, hx, hb]
  | skipEq x y | skipNe x y =>
    obtain ⟨hf, hx, hy, hn⟩ := Word.fields_of_pairWord hlow (by decide)
    simp only [ofWord?, hf, hx, hy, Fin.val_eq_zero_iff.1 hn, if_true]
  | draw x y rows =>
    obtain ⟨hf, hx, hy, hn⟩ := Word.fields_of_pairWord hlow rows.isLt
    simp only [ofWord?, hf, hx, hy, Fin.ext hn]
  | load x y | or x y | and x y | xor x y | add x y | sub x y | shiftRight x | subFrom x y
  | shiftLeft x =>
    obtain ⟨hf, hx, hy, hn⟩ := Word.fields_of_pairWord hlow (by decide)
    simp only [ofWord?, ofArithmetic?, hf, hx, hy, hn]

theorem y_encode_of_shift {spare : Nibble} (hi : i.operation ∈ [.shiftRight, .shiftLeft]) :
    Word.y (i.encode spare) = spare := by
  have hlow := i.low16_encode spare
  cases i with
  | shiftRight x | shiftLeft x => exact (Word.fields_of_pairWord hlow (by decide)).2.2.1
  | _ => simp [operation] at hi

/-- A word of any size and sign is decoded if it is legal, and otherwise refused as it is, with its
address.  What it is decoded to holds the word, the fields of its low sixteen bits, which fit
together as the digits that they are, and an instruction that takes its operands from them.  Every
instruction is what its own word decodes to, and of words outside family 0 nothing but the low
sixteen bits matters. -/
theorem decodes_iff_legal (w : Word) (address : Option Int) :
    ((∃ d, decode w address = .ok d) ↔ w.Legal) ∧
    (¬w.Legal → decode w address = .error ⟨w, address⟩) ∧
    (∀ d, decode w address = .ok d →
      d = .of w (d.instruction.operation.instruction w) ∧ d.nn.toNat = 16 * d.y + d.n ∧
        (d.nnn : Nat) = 256 * d.x + d.nn.toNat ∧
        w % 65536 = 4096 * (w.family : Nat) + (d.nnn : Nat)) ∧
    (∀ (i : Instruction) (spare : Nibble), ∃ d, decode (i.encode spare : Nat) address = .ok d ∧
      d.instruction = i ∧ (i.operation ∈ [.shiftRight, .shiftLeft] → d.y = spare)) ∧
    ∀ (v : Word) (address' : Option Int) (d e : Decoded),
      decode w address = .ok d → decode v address' = .ok e → w.family ≠ 0 → v.family ≠ 0 →
        w % 65536 = v % 65536 → e = { d with opcode := v } := by
  refine ⟨?_, ?_, ?_, ?_, ?_⟩
  · rw [← exists_ofWord?_iff]
    constructor
    · rintro ⟨d, hd⟩
      obtain ⟨i, hi, -⟩ := decode_eq_ok_iff.1 hd
      exact ⟨i, hi⟩
    · rintro ⟨i, hi⟩
      exact ⟨_, decode_of_ofWord? hi⟩
  · intro hillegal
    have hnone : ofWord? w = none := by
      rw [Option.eq_none_iff_forall_ne_some]
      exact fun i hi => hillegal (legal_of_ofWord? hi)
    exact decode_eq_error_iff.2 ⟨hnone, rfl⟩
  · intro d hd
    obtain ⟨i, hi, rfl⟩ := decode_eq_ok_iff.1 hd
    exact ⟨congrArg (Decoded.of w) (eq_of_ofWord? hi), w.nn_eq, w.nnn_eq, Word.emod_eq w⟩
  · intro i spare
    exact ⟨_, decode_of_ofWord? (i.ofWord?_encode spare), rfl, y_encode_of_shift⟩
  · intro v address' d e hd he hw _ hmod
    obtain ⟨i, hi, rfl⟩ := decode_eq_ok_iff.1 hd
    obtain ⟨j, hj, rfl⟩ := decode_eq_ok_iff.1 he
    have hlow : w.low16 = v.low16 := by
      unfold Word.low16
      rw [hmod]
    obtain ⟨-, hx, hy, hn, hnn, hnnn⟩ := Word.fields_congr hlow
    have hij : ofWord? w = ofWord? v := ofWord?_congr hlow (fun h => hw (Fin.ext h))
    rw [hi, hj, Option.some.injEq] at hij
    simp only [Decoded.of, hij, hx, hy, hn, hnn, hnnn]

/-- A shift below zero decodes as the one with its low sixteen bits does, unused digit and all; a
word that only ends like the one that clears the display is refused. -/
theorem decodes_of_shift_below_zero :
    (Word.Legal (-0x7EDA) ∧
      ∃ d, decode (-0x7EDA) none = .ok d ∧ d.instruction = .shiftRight 0x1 ∧ d.y = 0x2 ∧
        decode 0x8126 none = .ok { d with opcode := 0x8126 }) ∧
    ¬Word.Legal 0x100E0 ∧ decode 0x100E0 (some 0x2AA) = .error ⟨0x100E0, some 0x2AA⟩ := by
  have hbelow : decode (-0x7EDA) none = .ok (.of (-0x7EDA) (.shiftRight 0x1)) := rfl
  have habove : decode 0x8126 none = .ok (.of 0x8126 (.shiftRight 0x1)) := rfl
  have hillegal : ¬Word.Legal 0x100E0 := by decide
  obtain ⟨hiff, -, -, -, hsame⟩ := decodes_iff_legal (-0x7EDA) none
  have hopcode := hsame 0x8126 none _ _ hbelow habove (by decide) (by decide) rfl
  obtain ⟨-, hrefused, -⟩ := decodes_iff_legal 0x100E0 (some 0x2AA)
  refine ⟨⟨hiff.1 ⟨_, hbelow⟩, _, hbelow, rfl, rfl, ?_⟩, hillegal, hrefused hillegal⟩
  rw [habove, hopcode]

end Instruction

/-! ## Executing a word -/

namespace Machine

variable {ρ : Type} [Screen ρ]

/-- Executes a word that was not fetched. -/
def exec (m : Machine ρ) (word : Word) : Turn ρ := (m.holding word).perform

theorem exec_encode {m n : Machine ρ} {i : Instruction} (spare : Nibble)
    (hi : (m.holding (i.encode spare : Nat)).execute i = .ok () n) :
    (m.exec (i.encode spare : Nat)).result = .ok i ∧
      (m.exec (i.encode spare : Nat)).machine = n := by
  have hword : (m.holding (i.encode spare : Nat)).word = (i.encode spare : Nat) := rfl
  unfold exec perform
  rw [hword, decode_of_ofWord? (i.ofWord?_encode spare)]
  simp only [Decoded.of, hi, Turn.result, Except.map, and_self]

end Machine

end Chip8
