import Chip8.Clock
import Mathlib.Data.Int.Order.Basic
import Mathlib.Data.Nat.Order.Lemmas
import Mathlib.Data.Prod.Lex

/-!
# Times on a line

The times of a clock need not be exact, but those that it is told have to lie on a line.  The
floating point numbers that the host's clock shows do: each has a rank by its sign, its exponent and
its significand, and comparing two of them compares their ranks.
-/

namespace Chip8

open Float.Model

namespace Binary64

/-- Where a number lies among the others: its sign and kind first, then its exponent, and last its
significand. -/
def rank : UnpackedFloat → ℤ ×ₗ ℤ ×ₗ ℤ
  | .infinity .negative => toLex (-2, toLex (0, 0))
  | .finite .negative m e _ => toLex (-1, toLex (-e, -m))
  | .notANumber => toLex (0, toLex (0, 0))
  | .zero _ => toLex (0, toLex (0, 0))
  | .finite .positive m e _ => toLex (1, toLex (e, m))
  | .infinity .positive => toLex (2, toLex (0, 0))

theorem compare_natCast (m n : Nat) : compare (m : Int) n = compare m n := by
  rw [Int.compare_eq_ite_lt, Nat.compare_eq_ite_lt]
  simp only [Int.ofNat_lt]

theorem compare_neg (a b : Int) : compare (-a) (-b) = compare b a := by
  rw [Int.compare_eq_ite_lt, Int.compare_eq_ite_lt]
  simp only [Int.neg_lt_neg_iff]

theorem compare_eq {a b : UnpackedFloat} (ha : a ≠ .notANumber) (hb : b ≠ .notANumber) :
    a.compare b = some (compare (rank a) (rank b)) := by
  rcases a with (_ | _) | _ | _ | ⟨_ | _, m, e, hm⟩ <;>
  rcases b with (_ | _) | _ | _ | ⟨_ | _, n, f, hn⟩ <;>
  first | exact absurd rfl ha | exact absurd rfl hb | rfl | skip
  -- What is left is two finite numbers of one sign.
  case finite.negative.finite.negative =>
    change some ((compare e f).then (compare m n)).swap =
      some ((compare (-e) (-f)).then (compare (-(m : Int)) (-(n : Int))))
    rw [compare_neg, compare_neg, compare_natCast, Ordering.swap_then, Int.compare_swap,
      Nat.compare_swap]
  case finite.positive.finite.positive =>
    change _ = some ((compare e f).then (compare (m : Int) n))
    rw [compare_natCast]
    rfl

/-- A number of the largest exponent is infinite, or there is none. -/
theorem mantissa_pack {f : UnpackedFloat} (hf : f ≠ .notANumber)
    (hexponent : UnpackedFloat.unpackExponent (UnpackedFloat.pack Format.binary64 f) = -1#_) :
    UnpackedFloat.unpackMantissa (UnpackedFloat.pack Format.binary64 f) = 0#_ := by
  unfold UnpackedFloat.pack at hexponent ⊢
  cases f with
  | notANumber => exact absurd rfl hf
  | infinity s => exact UnpackedFloat.unpackMantissa_packComponents
  | zero s => exact UnpackedFloat.unpackMantissa_packComponents
  | finite s m e hm =>
    dsimp only at hexponent ⊢
    split
    · exact UnpackedFloat.unpackMantissa_packComponents
    · rename_i hbiased
      rw [if_neg hbiased] at hexponent
      split at hexponent
      · -- The exponent is below the largest one here.
        rw [UnpackedFloat.unpackExponent_packComponents] at hexponent
        have hbits := congrArg BitVec.toNat hexponent
        rw [BitVec.toNat_ofNat] at hbits
        change _ % 2048 = 2047 at hbits
        change ¬2048 ≤ _ at hbiased
        omega
      · rw [UnpackedFloat.unpackExponent_packComponents] at hexponent
        exact absurd hexponent (by decide)

theorem unpack_pack_ne {f : UnpackedFloat} (hf : f ≠ .notANumber) :
    (pack f).unpack ≠ .notANumber := by
  intro h
  change UnpackedFloat.unpack Format.binary64 (UnpackedFloat.pack Format.binary64 f) = _ at h
  unfold UnpackedFloat.unpack at h
  rcases ite_eq_iff.1 h with ⟨hexponent, h⟩ | ⟨-, h⟩
  · rw [if_pos (mantissa_pack hf hexponent)] at h
    cases h
  · rcases ite_eq_iff.1 h with ⟨-, h⟩ | ⟨-, h⟩
    · rcases dite_eq_iff.1 h with ⟨_, h⟩ | ⟨_, h⟩ <;> cases h
    · cases h

theorem round_ne (spec : Format) (s : UnpackedFloat.Sign) (m : Nat) (e : Int) :
    UnpackedFloat.round spec s m e ≠ .notANumber := by
  unfold UnpackedFloat.round UnpackedFloat.roundWithAccuracy
  intro h
  rcases dite_eq_iff.1 h with ⟨_, h⟩ | ⟨_, h⟩ <;> cases h

/-- A number that is neither infinite nor missing can be added to every other one. -/
theorem add_finite_ne {a : UnpackedFloat} (ha : a ≠ .notANumber) (s : UnpackedFloat.Sign) (m : Nat)
    (e : Int) (hm : 0 < m) :
    UnpackedFloat.add Format.binary64 a (.finite s m e hm) ≠ .notANumber := by
  cases a with
  | notANumber => exact absurd rfl ha
  | infinity s' => nofun
  | zero s' => nofun
  | finite s' m' e' hm' =>
    unfold UnpackedFloat.add UnpackedFloat.normalize
    dsimp only
    split
    · exact round_ne _ _ _ _
    · nofun
    · exact round_ne _ _ _ _

end Binary64

namespace Number

theorem isNaN_eq_false_iff {x : Float} :
    x.isNaN = false ↔ x.toModel.unpack ≠ .notANumber := by
  change x.toModel.unpack.isNaN = false ↔ _
  cases x.toModel.unpack with
  | notANumber => exact iff_of_false nofun fun h => h rfl
  | infinity s => exact iff_of_true rfl nofun
  | zero s => exact iff_of_true rfl nofun
  | finite s m e hm => exact iff_of_true rfl nofun

theorem less_iff {x y : Float} (hx : x.isNaN = false) (hy : y.isNaN = false) :
    (real x).less (.real y) = true ↔
      Binary64.rank x.toModel.unpack < Binary64.rank y.toModel.unpack := by
  have hcompare := Binary64.compare_eq (isNaN_eq_false_iff.1 hx) (isNaN_eq_false_iff.1 hy)
  change decide (x < y) = true ↔ _
  rw [decide_eq_true_iff]
  change decide (x.toModel < y.toModel) = true ↔ _
  rw [decide_eq_true_iff]
  change (x.toModel.unpack.compare y.toModel.unpack == some .lt) = true ↔ _
  rw [hcompare, beq_iff_eq, Option.some_inj, compare_lt_iff_lt]

theorem equals_iff {x y : Float} (hx : x.isNaN = false) (hy : y.isNaN = false) :
    (real x).equals (.real y) = true ↔
      Binary64.rank x.toModel.unpack = Binary64.rank y.toModel.unpack := by
  have hcompare := Binary64.compare_eq (isNaN_eq_false_iff.1 hx) (isNaN_eq_false_iff.1 hy)
  change (x.toModel.unpack.compare y.toModel.unpack == some .eq) = true ↔ _
  rw [hcompare, beq_iff_eq, Option.some_inj, compare_eq_iff_eq]

end Number

namespace TimeLine

variable {τ : Type} [TimeLine τ]

/-- The times in `P` lie on a line. -/
structure Orders (P : τ → Prop) : Prop where
  total : ∀ {a b}, P a → P b → le a b = true ∨ le b a = true
  trans : ∀ {a b c}, P a → P b → P c → le a b = true → le b c = true → le a c = true
  lt_iff : ∀ {a b}, P a → P b → (lt a b = true ↔ ¬le b a = true)

def later (a b : τ) : τ := if le a b then b else a

def latest (first : τ) (rest : List τ) : τ := rest.foldl later first

theorem later_eq_or (a b : τ) : later a b = a ∨ later a b = b := by
  unfold later
  split
  · exact Or.inr rfl
  · exact Or.inl rfl

theorem holds_later {P : τ → Prop} {a b : τ} (ha : P a) (hb : P b) : P (later a b) := by
  rcases later_eq_or a b with h | h
  · rwa [h]
  · rwa [h]

theorem latest_cons (first next : τ) (rest : List τ) :
    latest first (next :: rest) = latest (later first next) rest := rfl

theorem latest_mem (first : τ) (rest : List τ) : latest first rest ∈ first :: rest := by
  induction rest generalizing first with
  | nil => exact List.mem_cons_self
  | cons next rest ih =>
    rw [latest_cons]
    rcases later_eq_or first next with h | h
    · rw [h]
      exact List.mem_cons.2 ((List.mem_cons.1 (ih first)).imp_right (List.mem_cons_of_mem _))
    · rw [h]
      exact List.mem_cons_of_mem _ (ih next)

namespace Orders

theorem of_rank {ι α : Type} [LinearOrder α] {place : ι → τ} {rank : ι → α}
    (hle : ∀ i j, le (place i) (place j) = true ↔ rank i ≤ rank j)
    (hlt : ∀ i j, lt (place i) (place j) = true ↔ rank i < rank j) :
    Orders fun a => ∃ i, a = place i where
  total := by
    rintro _ _ ⟨i, rfl⟩ ⟨j, rfl⟩
    rw [hle, hle]
    exact le_total (rank i) (rank j)
  trans := by
    rintro _ _ _ ⟨i, rfl⟩ ⟨j, rfl⟩ ⟨k, rfl⟩ hij hjk
    rw [hle] at hij hjk ⊢
    exact hij.trans hjk
  lt_iff := by
    rintro _ _ ⟨i, rfl⟩ ⟨j, rfl⟩
    rw [hle, hlt]
    exact not_le.symm

variable {P : τ → Prop} {a b : τ}

theorem le_later (hP : Orders P) (ha : P a) (hb : P b) :
    le a (later a b) = true ∧ le b (later a b) = true := by
  have hrefl : ∀ {c}, P c → le c c = true := fun hc => (hP.total hc hc).elim id id
  unfold later
  split
  · rename_i h
    exact ⟨h, hrefl hb⟩
  · rename_i h
    exact ⟨hrefl ha, (hP.total ha hb).resolve_left h⟩

theorem le_latest (hP : Orders P) {first : τ} {rest : List τ} (h : ∀ t ∈ first :: rest, P t) :
    ∀ t ∈ first :: rest, le t (latest first rest) = true := by
  induction rest generalizing first with
  | nil =>
    intro t ht
    rw [List.mem_singleton.1 ht]
    have hfirst := h first List.mem_cons_self
    exact (hP.total hfirst hfirst).elim id id
  | cons next rest ih =>
    have hfirst : P first := h first List.mem_cons_self
    have hnext : P next := h next (by simp)
    have hrest : ∀ t ∈ later first next :: rest, P t := by
      intro t ht
      rcases List.mem_cons.1 ht with rfl | ht
      · exact holds_later hfirst hnext
      · exact h t (by simp [ht])
    have hlast : P (latest first (next :: rest)) := h _ (latest_mem first (next :: rest))
    rw [latest_cons] at hlast ⊢
    obtain ⟨hle, hle'⟩ := hP.le_later hfirst hnext
    have hlater := ih hrest _ List.mem_cons_self
    intro t ht
    rcases List.mem_cons.1 ht with rfl | ht
    · exact hP.trans hfirst (holds_later hfirst hnext) hlast hle hlater
    · rcases List.mem_cons.1 ht with rfl | ht
      · exact hP.trans hnext (holds_later hfirst hnext) hlast hle' hlater
      · exact ih hrest t (List.mem_cons_of_mem _ ht)

end Orders

/-! ## Readings -/

/-- What the host's clock may show. -/
abbrev Reading := { x : Float // x.isNaN = false }

def Shown (n : Number) : Prop := ∃ x : Reading, n = .real x

theorem orders_shown : Orders Shown := by
  have hlt : ∀ x y : Reading, lt (Number.real x) (.real y) = true ↔
      Binary64.rank x.1.toModel.unpack < Binary64.rank y.1.toModel.unpack :=
    fun x y => Number.less_iff x.2 y.2
  refine Orders.of_rank ?_ hlt
  intro x y
  change ((Number.real x).less (.real y) || (Number.real x).equals (.real y)) = true ↔ _
  rw [Bool.or_eq_true, Number.less_iff x.2 y.2, Number.equals_iff x.2 y.2]
  exact le_iff_lt_or_eq.symm

theorem check_of_shown {n : Number} (h : Shown n) : check n = .ok () := by
  obtain ⟨x, rfl⟩ := h
  rfl

theorem Shown.add_tickSpan {n : Number} (h : Shown n) : Shown (add n tickSpan) := by
  obtain ⟨x, rfl⟩ := h
  obtain ⟨m, e, hm, hspan⟩ : ∃ m e hm,
      (1.0 / 60.0 : Float).toModel.unpack = .finite .positive m e hm := ⟨_, _, _, rfl⟩
  refine ⟨⟨x.1 + 1.0 / 60.0, Number.isNaN_eq_false_iff.2 ?_⟩, rfl⟩
  apply Binary64.unpack_pack_ne
  rw [hspan]
  exact Binary64.add_finite_ne (Number.isNaN_eq_false_iff.1 x.2) .positive m e hm

end TimeLine

end Chip8
