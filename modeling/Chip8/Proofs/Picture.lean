import Mathlib.Algebra.Ring.Parity
import Mathlib.Data.List.DropRight
import Mathlib.Data.List.Induction
import Chip8.Display

/-!
# The picture after any requests

What is asked of a display, one request after the other, and what becomes of its pixels, on any
screen.  A pixel is lit if it was flipped an odd number of times since the display was last cleared:
coordinates that name the same column and row are those of the same pixel, and no others.
-/

namespace Chip8.Display

inductive Request
  | flip (x y : Int)
  | clear
  | refresh

namespace Request

def clears : Request → Bool
  | .clear => true
  | _ => false

def refreshes : Request → Bool
  | .refresh => true
  | _ => false

def flips (width height : Nat) (x y : Int) : Request → Bool
  | .flip a b => decide (a % width = x % width) && decide (b % height = y % height)
  | _ => false

end Request

/-- What a display is left as, the calls that it made, and what it answers: after a flip, whether
the pixel was lit. -/
structure Answer (ρ : Type) where
  display : Display ρ
  calls : List HostCall
  result : Except ScreenError (Option Bool)

section

variable {ρ : Type} [Screen ρ]

def serve (d : Display ρ) : Request → Answer ρ
  | .flip x y =>
    match d.flip x y with
    | .ok was d' => ⟨d', [], .ok (some was)⟩
    | .error e d' => ⟨d', [], .error e⟩
  | .clear =>
    match d.clear with
    | .ok () d' => ⟨d', [], .ok none⟩
    | .error e d' => ⟨d', [], .error e⟩
  | .refresh =>
    ⟨d.refresh.state, d.refresh.calls,
      match d.refresh.failure with
      | none => .ok none
      | some e => .error e⟩

def after (d : Display ρ) : List Request → Display ρ
  | [] => d
  | r :: rest => (d.serve r).display.after rest

def callsOf (d : Display ρ) : List Request → List HostCall
  | [] => []
  | r :: rest => (d.serve r).calls ++ (d.serve r).display.callsOf rest

end

/-- The pixels that a request leaves, whether or not the screen takes them. -/
def litAfter {ρ : Type} (d : Display ρ) : Request → Vector Bool (d.width * d.height)
  | .flip x y => d.lit.set (d.row y * d.width + d.column x) (!d.isLit x y) (d.place_lt x y)
  | .clear => Vector.replicate _ false
  | .refresh => d.lit

/-- What a display answers as long as nothing fails. -/
def answer {ρ : Type} (d : Display ρ) : Request → Option Bool
  | .flip x y => some (d.isLit x y)
  | .clear => none
  | .refresh => none

def sinceClear (rs : List Request) : List Request := rs.rtakeWhile fun r => !r.clears

def sinceRefresh (rs : List Request) : List Request := rs.rtakeWhile fun r => !r.refreshes

/-- How often a pixel was flipped since the display was last cleared. -/
def flipCount (width height : Nat) (rs : List Request) (x y : Int) : Nat :=
  (sinceClear rs).countP (Request.flips width height x y)

/-- Whether there is something to draw: no refresh has come yet, or something else came after the
last one. -/
def Due (rs : List Request) : Prop :=
  (∀ r ∈ rs, r.refreshes = false) ∨ sinceRefresh rs ≠ []

variable {ρ : Type} [Screen ρ] {d : Display ρ}

theorem after_append (d : Display ρ) (rs ss : List Request) :
    d.after (rs ++ ss) = (d.after rs).after ss := by
  induction rs generalizing d with
  | nil => rfl
  | cons r rest ih => exact ih (d.serve r).display

theorem after_concat (d : Display ρ) (rs : List Request) (r : Request) :
    d.after (rs ++ [r]) = ((d.after rs).serve r).display :=
  after_append d rs [r]

theorem callsOf_concat (d : Display ρ) (rs : List Request) (r : Request) :
    d.callsOf (rs ++ [r]) = d.callsOf rs ++ ((d.after rs).serve r).calls := by
  induction rs generalizing d with
  | nil => simp [callsOf, after]
  | cons s rest ih => simp only [List.cons_append, callsOf, ih, List.append_assoc, after]

theorem due_concat (rs : List Request) (r : Request) : Due (rs ++ [r]) ↔ r.refreshes = false := by
  unfold Due sinceRefresh
  cases hr : r.refreshes with
  | true =>
    rw [List.rtakeWhile_concat_neg _ _ _ (by simp [hr])]
    simp [hr]
  | false =>
    rw [List.rtakeWhile_concat_pos _ _ _ (by simp [hr])]
    simp

/-! ## What a request leaves -/

theorem exists_serve_eq (d : Display ρ) (r : Request) :
    ∃ screen changed, (d.serve r).display = { d with screen, changed, lit := d.litAfter r } := by
  cases r with
  | flip x y =>
    unfold serve flip onScreen
    dsimp only
    cases Screen.setPixel d.screen (d.column x) (d.row y) (if d.isLit x y then 0 else 1) with
    | ok u screen => exact ⟨screen, true, rfl⟩
    | error e screen => exact ⟨screen, d.changed, rfl⟩
  | clear =>
    unfold serve clear onScreen
    dsimp only
    cases Screen.paint 0 d.screen d.coordinates with
    | ok u screen => exact ⟨screen, true, rfl⟩
    | error e screen => exact ⟨screen, true, rfl⟩
  | refresh => exact ⟨_, _, rfl⟩

@[simp] theorem width_serve (d : Display ρ) (r : Request) :
    (d.serve r).display.width = d.width := by
  obtain ⟨screen, changed, hserve⟩ := exists_serve_eq d r
  rw [hserve]

@[simp] theorem height_serve (d : Display ρ) (r : Request) :
    (d.serve r).display.height = d.height := by
  obtain ⟨screen, changed, hserve⟩ := exists_serve_eq d r
  rw [hserve]

@[simp] theorem width_after (d : Display ρ) (rs : List Request) : (d.after rs).width = d.width := by
  induction rs generalizing d with
  | nil => rfl
  | cons r rest ih => rw [after, ih, width_serve]

@[simp] theorem height_after (d : Display ρ) (rs : List Request) :
    (d.after rs).height = d.height := by
  induction rs generalizing d with
  | nil => rfl
  | cons r rest ih => rw [after, ih, height_serve]

/-! ## Places -/

omit [Screen ρ] in
theorem natCast_column (d : Display ρ) (x : Int) : (d.column x : Int) = x % d.width := by
  have := d.width_pos
  have := Int.emod_nonneg x (show (d.width : Int) ≠ 0 by omega)
  unfold column
  omega

omit [Screen ρ] in
theorem natCast_row (d : Display ρ) (y : Int) : (d.row y : Int) = y % d.height := by
  have := d.height_pos
  have := Int.emod_nonneg y (show (d.height : Int) ≠ 0 by omega)
  unfold row
  omega

omit [Screen ρ] in
theorem column_of_lt {a : Nat} (ha : a < d.width) : d.column a = a := by
  rw [column, Int.emod_eq_of_lt (by omega) (by omega), Int.toNat_natCast]

omit [Screen ρ] in
theorem row_of_lt {b : Nat} (hb : b < d.height) : d.row b = b := by
  rw [row, Int.emod_eq_of_lt (by omega) (by omega), Int.toNat_natCast]

omit [Screen ρ] in
theorem getElem?_toList_lit {a b : Nat} (ha : a < d.width) (hb : b < d.height) :
    d.lit.toList[b * d.width + a]? = some (d.isLit a b) := by
  have hplace : (d.place a b : Nat) = b * d.width + a := by
    change d.row b * d.width + d.column a = _
    rw [column_of_lt ha, row_of_lt hb]
  rw [← hplace, Vector.getElem?_toList, Vector.getElem?_eq_getElem (d.place a b).isLt]
  rfl

/-- No two pixels share a place. -/
theorem column_row_of_place {width c c' r r' : Nat} (hc : c < width) (hc' : c' < width)
    (h : r * width + c = r' * width + c') : c = c' ∧ r = r' := by
  have hrow : r = r' := by
    have hdiv := congrArg (· / width) h
    have hw : 0 < width := by omega
    simpa [Nat.mul_comm, Nat.mul_add_div hw, Nat.div_eq_of_lt hc, Nat.div_eq_of_lt hc'] using hdiv
  subst hrow
  omega

omit [Screen ρ] in
theorem place_eq_iff {a b x y : Int} :
    d.place a b = d.place x y ↔ a % d.width = x % d.width ∧ b % d.height = y % d.height := by
  rw [← natCast_column, ← natCast_column, ← natCast_row, ← natCast_row]
  constructor
  · intro h
    obtain ⟨hcolumn, hrow⟩ :=
      column_row_of_place (d.column_lt a) (d.column_lt x) (congrArg Fin.val h)
    omega
  · rintro ⟨hcolumn, hrow⟩
    apply Fin.ext
    simp only [place]
    rw [Int.ofNat.inj hcolumn, Int.ofNat.inj hrow]

omit [Screen ρ] in
theorem isLit_congr {a b x y : Int} (h : d.place a b = d.place x y) :
    d.isLit a b = d.isLit x y := by
  simp only [isLit, h]

omit [Screen ρ] in
theorem isLit_of_replicate (h : d.lit = Vector.replicate _ false) (x y : Int) :
    d.isLit x y = false := by
  rw [isLit, h, Fin.getElem_fin, Vector.getElem_replicate]

omit [Screen ρ] in
theorem isLit_emod (d : Display ρ) (x y : Int) :
    d.isLit (x % d.width) (y % d.height) = d.isLit x y :=
  isLit_congr (place_eq_iff.2
    ⟨Int.emod_emod_of_dvd x (dvd_refl _), Int.emod_emod_of_dvd y (dvd_refl _)⟩)

/-! ## Pixels -/

theorem isLit_flip (d : Display ρ) (a b x y : Int) :
    (d.serve (.flip a b)).display.isLit x y =
      ((Request.flip a b).flips d.width d.height x y ^^ d.isLit x y) := by
  obtain ⟨screen, changed, hserve⟩ := exists_serve_eq d (.flip a b)
  rw [hserve]
  change (d.lit.set (d.place a b) (!d.isLit a b))[d.place x y] = _
  rw [Fin.getElem_fin, Vector.getElem_set]
  by_cases hplace : d.place a b = d.place x y
  · obtain ⟨hx, hy⟩ := place_eq_iff.1 hplace
    rw [if_pos (congrArg Fin.val hplace), isLit_congr hplace]
    simp [Request.flips, hx, hy]
  · have hflips : (Request.flip a b).flips d.width d.height x y = false := by
      rw [place_eq_iff] at hplace
      simpa [Request.flips] using hplace
    rw [if_neg (fun hval => hplace (Fin.ext hval)), hflips, Bool.false_xor]
    rfl

theorem isLit_clear (d : Display ρ) (x y : Int) : (d.serve .clear).display.isLit x y = false := by
  obtain ⟨screen, changed, hserve⟩ := exists_serve_eq d .clear
  rw [hserve]
  exact isLit_of_replicate rfl x y

theorem isLit_refresh (d : Display ρ) (x y : Int) :
    (d.serve .refresh).display.isLit x y = d.isLit x y := rfl

theorem flipCount_concat (width height : Nat) (rs : List Request) {r : Request}
    (hr : r.clears = false) (x y : Int) :
    flipCount width height (rs ++ [r]) x y =
      flipCount width height rs x y + if r.flips width height x y then 1 else 0 := by
  unfold flipCount sinceClear
  rw [List.rtakeWhile_concat_pos _ _ _ (by simp [hr]), List.countP_append, List.countP_singleton]

theorem flipCount_concat_clear (width height : Nat) (rs : List Request) (x y : Int) :
    flipCount width height (rs ++ [.clear]) x y = 0 := by
  unfold flipCount sinceClear
  rw [List.rtakeWhile_concat_neg _ _ _ (by simp [Request.clears]), List.countP_nil]

/-- A pixel of a display that was dark is lit if it was flipped an odd number of times since the
display was last cleared. -/
theorem isLit_after (hdark : ∀ x y, d.isLit x y = false) (rs : List Request) (x y : Int) :
    (d.after rs).isLit x y = true ↔ Odd (flipCount d.width d.height rs x y) := by
  -- From the right: the last request decides alone if it clears the display.
  induction rs using List.reverseRecOn with
  | nil =>
    have hzero : flipCount d.width d.height [] x y = 0 := rfl
    simp [after, hdark, hzero]
  | append_singleton rs r ih =>
    rw [after_concat]
    cases r with
    | flip a b =>
      rw [isLit_flip, width_after, height_after, flipCount_concat _ _ _ rfl]
      cases (Request.flip a b).flips d.width d.height x y with
      | false => simpa using ih
      | true => simp [Nat.odd_add_one, ← ih]
    | clear =>
      rw [isLit_clear, flipCount_concat_clear]
      simp
    | refresh =>
      rw [isLit_refresh, flipCount_concat _ _ _ rfl]
      simpa [Request.flips] using ih

/-! ## Whether anything was drawn since the last refresh -/

theorem changed_serve {r : Request} {answer : Option Bool} (h : (d.serve r).result = .ok answer) :
    (d.serve r).display.changed = !r.refreshes := by
  revert h
  cases r with
  | flip x y =>
    unfold serve flip onScreen
    dsimp only
    cases Screen.setPixel d.screen (d.column x) (d.row y) (if d.isLit x y then 0 else 1) with
    | ok u screen => exact fun _ => rfl
    | error e screen => exact nofun
  | clear =>
    unfold serve clear onScreen
    dsimp only
    cases Screen.paint 0 d.screen d.coordinates <;> exact fun _ => rfl
  | refresh =>
    unfold serve refresh
    dsimp only
    cases (Screen.refresh d.screen d.changed).failure with
    | none => exact fun _ => Bool.and_false _
    | some e => exact nofun

/-- A display that never fails is marked as changed just when there is something to draw. -/
theorem changed_after (hd : d.changed = true)
    (hok : ∀ rs r, ∃ answer, ((d.after rs).serve r).result = .ok answer) (rs : List Request) :
    (d.after rs).changed = true ↔ Due rs := by
  induction rs using List.reverseRecOn with
  | nil => exact iff_of_true hd (Or.inl (List.forall_mem_nil _))
  | append_singleton rs r _ =>
    obtain ⟨answer, hanswer⟩ := hok rs r
    rw [after_concat, changed_serve hanswer, due_concat, Bool.not_eq_true']

end Chip8.Display
