import Chip8.Proofs.Canvas
import Chip8.Proofs.Parity

/-!
# Flips in a row

What becomes of a picture whose pixels are flipped one after the other, on a screen that does not
fail.  A pixel changes if its turn comes an odd number of times.  Some pixel is lit when its turn
comes just if a lit one has a turn at all, or any has two.
-/

namespace Chip8.Display

/-- Whatever is drawn on the display, and on what becomes of it, that never fails. -/
def Unfailing {ρ : Type} [Screen ρ] (d : Display ρ) : Prop :=
  ∀ rs, .refresh ∉ rs → ∀ r ≠ .refresh, ((d.after rs).serve r).result = .ok ((d.after rs).answer r)

theorem unfailing_of_mirrors {d : Display Grid} (h : d.Fits) (hm : d.Mirrors) : d.Unfailing := by
  intro rs _ r _
  obtain ⟨hfits, hmirrors⟩ := after_mirrors h hm rs
  exact (serve_mirrors hfits hmirrors r).1

theorem unfailing_of_showing {d : Display Window} {w : Window} (h : d.screen = w.showing d) :
    d.Unfailing := by
  intro rs hrs r hr
  have hshown := after_showing h rs fun hmem => absurd hmem hrs
  exact (serve_showing hshown r fun hrefresh => absurd hrefresh hr).1

def flipsAt (places : List (Int × Int)) : List Request := places.map fun p => .flip p.1 p.2

theorem refresh_not_mem_flipsAt (places : List (Int × Int)) : .refresh ∉ flipsAt places := by
  unfold flipsAt
  simp

def turns {ρ : Type} (d : Display ρ) (places : List (Int × Int)) (x y : Int) : Nat :=
  (flipsAt places).countP (Request.flips d.width d.height x y)

section

variable {ρ : Type} [Screen ρ] {d : Display ρ}

theorem Unfailing.serve (h : d.Unfailing) {r : Request} (hr : r ≠ .refresh) :
    (d.serve r).display.Unfailing :=
  fun rs hrs => h (r :: rs) fun hmem => (List.mem_cons.1 hmem).elim (hr ·.symm) hrs

theorem Unfailing.after (h : d.Unfailing) {rs : List Request} (hrs : .refresh ∉ rs) :
    (d.after rs).Unfailing := by
  induction rs generalizing d with
  | nil => exact h
  | cons r rest ih =>
    exact ih (h.serve (List.ne_of_not_mem_cons hrs).symm) (List.not_mem_of_not_mem_cons hrs)

theorem Unfailing.flip_eq (h : d.Unfailing) (x y : Int) :
    d.flip x y = .ok (d.isLit x y) (d.serve (.flip x y)).display := by
  have hresult := h [] List.not_mem_nil (.flip x y) nofun
  unfold Display.serve at hresult ⊢
  simp only [Display.after] at hresult ⊢
  cases hflip : d.flip x y with
  | ok was d' =>
    rw [hflip] at hresult
    cases hresult
    rfl
  | error e d' =>
    rw [hflip] at hresult
    cases hresult

omit [Screen ρ] in
theorem turns_cons (d : Display ρ) (p : Int × Int) (rest : List (Int × Int)) (x y : Int) :
    d.turns (p :: rest) x y =
      d.turns rest x y + if (Request.flip p.1 p.2).flips d.width d.height x y then 1 else 0 :=
  List.countP_cons

theorem turns_serve (d : Display ρ) (r : Request) (places : List (Int × Int)) (x y : Int) :
    (d.serve r).display.turns places x y = d.turns places x y := by
  unfold turns
  rw [width_serve, height_serve]

theorem isLit_after_flipsAt (d : Display ρ) (places : List (Int × Int)) (x y : Int) :
    (d.after (flipsAt places)).isLit x y = (d.isLit x y ^^ decide (Odd (d.turns places x y))) := by
  induction places generalizing d with
  | nil => simp [flipsAt, turns, Display.after]
  | cons p rest ih =>
    have hrest := ih (d.serve (.flip p.1 p.2)).display
    rw [turns_serve, isLit_flip] at hrest
    rw [turns_cons]
    refine hrest.trans ?_
    cases (Request.flip p.1 p.2).flips d.width d.height x y with
    | false => simp
    | true => by_cases hodd : Odd (d.turns rest x y) <;> simp [Nat.odd_add_one, hodd]

/-! ## Pixels that are lit at their turn -/

def LitAtTurn {ρ : Type} (d : Display ρ) (places : List (Int × Int)) (x y : Int) : Prop :=
  1 ≤ d.turns places x y ∧ d.isLit x y = true ∨ 2 ≤ d.turns places x y

theorem litAtTurn_cons (d : Display ρ) (p : Int × Int) (rest : List (Int × Int)) (x y : Int) :
    d.LitAtTurn (p :: rest) x y ↔
      (Request.flip p.1 p.2).flips d.width d.height x y = true ∧ d.isLit x y = true ∨
        (d.serve (.flip p.1 p.2)).display.LitAtTurn rest x y := by
  unfold LitAtTurn
  rw [turns_serve, isLit_flip, turns_cons]
  cases (Request.flip p.1 p.2).flips d.width d.height x y with
  | false => simp
  | true =>
    cases d.isLit x y with
    | false =>
      simp
      omega
    | true => simp

theorem exists_litAtTurn_cons (d : Display ρ) (p : Int × Int) (rest : List (Int × Int)) :
    (∃ x y, d.LitAtTurn (p :: rest) x y) ↔
      d.isLit p.1 p.2 = true ∨
        ∃ x y, (d.serve (.flip p.1 p.2)).display.LitAtTurn rest x y := by
  have hfirst : (∃ x y, (Request.flip p.1 p.2).flips d.width d.height x y = true ∧
      d.isLit x y = true) ↔ d.isLit p.1 p.2 = true := by
    constructor
    · rintro ⟨x, y, hflips, hlit⟩
      simp only [Request.flips, Bool.and_eq_true, decide_eq_true_eq] at hflips
      rwa [isLit_congr (place_eq_iff.2 hflips)]
    · intro hlit
      exact ⟨p.1, p.2, by simp [Request.flips], hlit⟩
  simp only [litAtTurn_cons, exists_or, hfirst]

theorem exists_flipEach_eq (h : d.Unfailing) (places : List (Int × Int)) :
    ∃ collided, d.flipEach places = .ok collided (d.after (flipsAt places)) ∧
      (collided = true ↔ ∃ x y, d.LitAtTurn places x y) := by
  induction places generalizing d with
  | nil => exact ⟨false, rfl, by simp [LitAtTurn, turns, flipsAt]⟩
  | cons p rest ih =>
    obtain ⟨collided, hrest, hcollided⟩ := ih (h.serve (r := .flip p.1 p.2) nofun)
    refine ⟨d.isLit p.1 p.2 || collided, ?_, ?_⟩
    · rw [flipEach, h.flip_eq]
      simp only [hrest]
      rfl
    · rw [exists_litAtTurn_cons, Bool.or_eq_true, hcollided]

end

end Chip8.Display
