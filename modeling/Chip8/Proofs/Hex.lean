import Chip8.Text.Hex
import Mathlib.Algebra.Group.Nat.Defs
import Mathlib.Data.List.Nodup

/-!
# Hexadecimal text of a fixed width

A number that fits a width is written with just as many digits, one for each power of sixteen, so
that numbers of one width are told apart by their text.
-/

namespace Chip8.Text

def hexAlphabet : List Char := (List.range 16).map Nat.digitChar

theorem digitChar_mem_hexAlphabet {d : Nat} (hd : d < 16) : d.digitChar ∈ hexAlphabet :=
  List.mem_map_of_mem (List.mem_range.2 hd)

theorem digitChar_inj_of_lt {d e : Nat} (hd : d < 16) (he : e < 16)
    (h : d.digitChar = e.digitChar) : d = e :=
  List.inj_on_of_nodup_map (by decide : hexAlphabet.Nodup) (List.mem_range.2 hd)
    (List.mem_range.2 he) h

theorem hexDigits_succ (width n : Nat) :
    hexDigits (width + 2) n = hexDigits (width + 1) (n / 16) ++ [(n % 16).digitChar] := by
  unfold hexDigits
  rw [Nat.toDigits_eq_if (by decide)]
  by_cases hn : n < 16
  · have hquotient : n / 16 = 0 := Nat.div_eq_of_lt hn
    rw [if_pos hn, hquotient, Nat.mod_eq_of_lt hn, Nat.toDigits_zero]
    calc List.replicate (width + 1) '0' ++ [n.digitChar]
        _ = List.replicate width '0' ++ ['0'] ++ [n.digitChar] := by rw [List.replicate_succ']
  · rw [if_neg hn, List.length_append, List.length_singleton, ← List.append_assoc]
    congr 3
    omega

theorem hexDigits_one {n : Nat} (hn : n < 16) : hexDigits 1 n = [n.digitChar] := by
  unfold hexDigits
  rw [Nat.toDigits_of_lt_base hn]
  rfl

theorem div_lt_pow {width n : Nat} (hn : n < 16 ^ (width + 2)) : n / 16 < 16 ^ (width + 1) := by
  rw [Nat.pow_succ] at hn
  omega

theorem length_hexDigits {width n : Nat} (hn : n < 16 ^ (width + 1)) :
    (hexDigits (width + 1) n).length = width + 1 := by
  induction width generalizing n with
  | zero => rw [hexDigits_one hn, List.length_singleton]
  | succ width ih =>
    rw [hexDigits_succ, List.length_append, ih (div_lt_pow hn), List.length_singleton]

theorem mem_hexAlphabet_of_mem_hexDigits {width n : Nat} (hn : n < 16 ^ (width + 1)) {c : Char}
    (hc : c ∈ hexDigits (width + 1) n) : c ∈ hexAlphabet := by
  induction width generalizing n with
  | zero =>
    rw [hexDigits_one hn] at hc
    rw [List.mem_singleton.1 hc]
    exact digitChar_mem_hexAlphabet hn
  | succ width ih =>
    rw [hexDigits_succ] at hc
    rcases List.mem_append.1 hc with hc | hc
    · exact ih (div_lt_pow hn) hc
    · rw [List.mem_singleton.1 hc]
      exact digitChar_mem_hexAlphabet (Nat.mod_lt n (by decide))

theorem hexDigits_inj {width m n : Nat} (hm : m < 16 ^ (width + 1)) (hn : n < 16 ^ (width + 1))
    (h : hexDigits (width + 1) m = hexDigits (width + 1) n) : m = n := by
  induction width generalizing m n with
  | zero =>
    rw [hexDigits_one hm, hexDigits_one hn] at h
    exact digitChar_inj_of_lt hm hn (List.singleton_inj.1 h)
  | succ width ih =>
    rw [hexDigits_succ, hexDigits_succ] at h
    obtain ⟨hfront, hlast⟩ := List.append_inj' h rfl
    have hquotient : m / 16 = n / 16 := ih (div_lt_pow hm) (div_lt_pow hn) hfront
    have hremainder : m % 16 = n % 16 :=
      digitChar_inj_of_lt (Nat.mod_lt m (by decide)) (Nat.mod_lt n (by decide))
        (List.singleton_inj.1 hlast)
    calc m
        = 16 * (m / 16) + m % 16 := (Nat.div_add_mod m 16).symm
      _ = 16 * (n / 16) + n % 16 := by rw [hquotient, hremainder]
      _ = n := Nat.div_add_mod n 16

end Chip8.Text
