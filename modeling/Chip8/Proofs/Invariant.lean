import Chip8.Proofs.KeyHistory
import Chip8.Proofs.Press
import Chip8.Proofs.Turn

/-!
# What holds of every reachable machine

Every machine that a usual one can become by requests is sound, and after a fault it points at the
word that caused it.  A request to it is only refused for a reason that a program or a host can
give: no location, byte or pixel is ever out of bounds.
-/

namespace Chip8

namespace Machine

/-- A sound machine that points at the word of its fault, if it has one. -/
structure Legal (m : Machine Grid) : Prop extends Sound m where
  halted : ∀ f, m.fault = some f → m.pc = m.address

variable {m : Machine Grid}

theorem isAddress_zero : IsAddress 0 := by decide

theorem isWord_zero : IsWord 0 := by
  unfold IsWord
  omega

theorem isAddress_origin : IsAddress origin := by decide

theorem legal_firstState {display : Display Grid} (hd : display.Fits) (random : RandomSource)
    (indexOverflow live : Bool) :
    Legal (firstState stackDepth display random indexOverflow live) where
  memory := size_firstMemory
  limit := rfl
  depth := Nat.zero_le _
  items := fun _ ha => nomatch ha
  index := isAddress_zero
  pc := isAddress_origin
  address := isAddress_origin
  word := isWord_zero
  fits := hd.darkened
  mirrors := Display.mirrors_darkened _
  halted := fun _ hf => nomatch hf

theorem Sound.fresh (h : Sound m) : Legal m.fresh := by
  unfold Machine.fresh
  rw [h.limit]
  exact legal_firstState h.fits _ _ _

theorem Sound.loaded (h : Sound m) (program : Array UInt8) : Legal (m.loaded program) :=
  { h.fresh with memory := size_memoryWith program }

/-- What every request preserves: it is enough to look at the ways to start the machine anew, at
the keypad and the timers, and at a cycle. -/
theorem serve_preserves {P : Machine Grid → Prop} (h : Sound m) (hfresh : P m.fresh)
    (hloaded : ∀ program, P (m.loaded program))
    (haside : ∀ keypad timers, P { m with keypad, timers }) (hcycle : P m.cycle.machine)
    (r : Request) : P (m.serve r).1 := by
  by_cases hr : r.Restarts
  · cases r with
    | load program =>
      rw [serve, load_eq h.memory h.fits hr]
      exact hloaded program
    | reset =>
      rw [serve, reset_eq h.memory h.fits]
      exact hfresh
    | cycle => exact hr.elim
    | tick => exact hr.elim
    | setKey key isDown => exact hr.elim
  · by_cases hc : r = .cycle
    · subst hc
      rw [serve_cycle]
      exact hcycle
    · obtain ⟨keypad, timers, hserve, -, -⟩ := serve_aside m hr hc
      rw [hserve]
      exact haside keypad timers

theorem Legal.cycle (h : Legal m) : Legal m.cycle.machine := by
  cases hf : m.fault with
  | some f =>
    rw [cycle_of_halted hf]
    exact h
  | none =>
    cases he : m.nextFault? with
    | some f =>
      rw [(cycle_of_nextFault h.toSound hf he).1]
      exact { h.toSound.takeUp with pc := h.pc, halted := fun _ _ => rfl }
    | none =>
      obtain ⟨i, n, -, -, hn, hcontext, hcycle⟩ := cycle_of_sound h.toSound hf he
      have hfault : n.fault = m.fault := congrArg Context.fault hcontext
      rw [hcycle]
      refine { hn with halted := ?_ }
      intro f hnf
      rw [hfault, hf] at hnf
      cases hnf

theorem Legal.serve (h : Legal m) (r : Request) : Legal (m.serve r).1 :=
  serve_preserves h.toSound h.toSound.fresh h.toSound.loaded (fun _ _ => { h with }) h.cycle r

theorem Reachable.legal (h : Reachable m) : Legal m := by
  induction h with
  | built hd hm =>
    have hfits := Display.fits_of_new hd
    rw [standard_eq hfits] at hm
    obtain rfl := Except.ok.inj hm
    exact legal_firstState hfits _ _ _
  | served _ r ih => exact ih.serve r

/-! ## Refusals -/

def usual : Machine Grid :=
  firstState stackDepth (Display.built .null 64 32 (by decide)) (RandomSource.cycling [])
    false false

theorem reachable_usual : Reachable usual := by
  have hcheck : Memory.checkSize .gigabyte (64 * 32) = .ok () :=
    Memory.checkSize_eq_ok_iff.2 (by decide)
  have hnew : Display.new .gigabyte (Grid.new .null) 64 32 = _ :=
    Display.new_eq (by decide) hcheck
  exact .built hnew (standard_eq (Display.fits_of_new hnew) _ _ _)

theorem usual_after_load {program : Array UInt8} (hsize : program.size ≤ programLimit) :
    usual.after [.load program] = usual.loaded program := by
  have h : Sound usual := reachable_usual.legal.toSound
  simp only [after, serve, load_eq h.memory h.fits hsize, Result.settle]

theorem reachable_usual_loaded {program : Array UInt8} (hsize : program.size ≤ programLimit) :
    Reachable (usual.loaded program) := by
  have h := reachable_usual.after [.load program]
  rwa [usual_after_load hsize] at h

theorem upcoming_eq {program : Array UInt8} (hsize : program.size ≤ programLimit)
    (hmemory : m.memory = memoryWith program) {k : Nat} (hpc : m.pc = (origin + k : Nat))
    {high low : UInt8} (h₀ : program[k]? = some high) (h₁ : program[k + 1]? = some low) :
    m.upcoming = 256 * high.toNat + low.toNat := by
  obtain ⟨hlen₀, -⟩ := Array.getElem?_eq_some_iff.1 h₀
  obtain ⟨hlen₁, -⟩ := Array.getElem?_eq_some_iff.1 h₁
  have hhigh := getElem?_memoryWith_program hsize hlen₀
  have hlow := getElem?_memoryWith_program hsize hlen₁
  have hnext : wrapAddress ((origin + k : Nat) + 1) = (origin + (k + 1) : Nat) := by
    have htop : origin + programLimit = 4096 := by decide
    rw [wrapAddress_of_lt (by omega) (by omega)]
    omega
  unfold upcoming Memory.byteAt
  rw [hpc, hnext, hmemory, Int.toNat_natCast, Int.toNat_natCast, hhigh, hlow, h₀, h₁]
  rfl

theorem upcoming_loaded {program : Array UInt8} (hsize : program.size ≤ programLimit)
    {high low : UInt8} (h₀ : program[0]? = some high) (h₁ : program[1]? = some low) :
    (m.loaded program).upcoming = 256 * high.toNat + low.toNat :=
  upcoming_eq hsize rfl rfl h₀ h₁

/-! ## The ranges of a machine's parts -/

end Machine

end Chip8
