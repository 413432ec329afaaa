import Chip8.Proofs.FirstState

/-!
# Presses

The requests that run no instruction reach the keypad and the timers alone.  A press counts if the
key was up before it, and the keypad latches the last one that counts.
-/

namespace Chip8

def Request.Releases (k : Nibble) : Request → Prop
  | .setKey key isDown => Keypad.key? key = some k ∧ isDown.truth = false
  | _ => False

namespace Machine

variable {ρ : Type} [Screen ρ]

/-- The key that a request presses, if it presses one that was up. -/
def pressed? (m : Machine ρ) : Request → Option Nibble
  | .setKey key isDown =>
    match Keypad.key? key with
    | some k => if isDown.truth && !m.keypad.down.get k then some k else none
    | none => none
  | _ => none

/-- The last key that went from up to down while some requests were served. -/
def lastPress (m : Machine ρ) : List Request → Option Nibble
  | [] => none
  | r :: rest => ((m.serve r).1.lastPress rest).or (m.pressed? r)

@[simp] theorem lastPress_nil (m : Machine ρ) : m.lastPress [] = none := rfl

theorem lastPress_append (m : Machine ρ) (rs ss : List Request) :
    m.lastPress (rs ++ ss) = ((m.after rs).lastPress ss).or (m.lastPress rs) := by
  induction rs generalizing m with
  | nil => rw [List.nil_append, after_nil, lastPress_nil, Option.or_none]
  | cons r rest ih =>
    rw [List.cons_append, lastPress, lastPress, ih, after_cons, Option.or_assoc]

theorem lastPress_concat (m : Machine ρ) (rs : List Request) (r : Request) :
    m.lastPress (rs ++ [r]) = ((m.after rs).pressed? r).or (m.lastPress rs) := by
  rw [lastPress_append]
  rfl

theorem latched_set (keypad : Keypad) (k : Nibble) (isDown : Bool) :
    (keypad.set k isDown).latched =
      (if isDown && !keypad.down.get k then some k else none).or keypad.latched := by
  unfold Keypad.set
  split <;> rfl

theorem get_down_set {keypad : Keypad} {k key : Nibble} {isDown : Bool}
    (hk : keypad.down.get k = true) (hkey : key = k → isDown = true) :
    (keypad.set key isDown).down.get k = true := by
  unfold Keypad.set
  rw [Nibble.get_update]
  split
  · rename_i heq
    exact hkey heq
  · exact hk

theorem serve_setKey_of_key {key : HostValue} {k : Nibble} (hkey : Keypad.key? key = some k)
    (m : Machine ρ) (isDown : HostValue) :
    (m.serve (.setKey key isDown)).1 = { m with keypad := m.keypad.set k isDown.truth } := by
  rw [serve_setKey, hkey]

/-- A request that neither starts the machine anew nor runs an instruction reaches the keypad and
the timers alone: it latches the press that it makes, if it makes one, and releases no key but the
one that it names. -/
theorem serve_aside (m : Machine ρ) {r : Request} (hr : ¬r.Restarts) (hcycle : r ≠ .cycle) :
    ∃ keypad timers, (m.serve r).1 = { m with keypad, timers } ∧
      keypad.latched = (m.pressed? r).or m.keypad.latched ∧
      ∀ k, m.keypad.down.get k = true → ¬r.Releases k → keypad.down.get k = true := by
  cases r with
  | load program =>
    have hsize : programLimit < program.size := Nat.not_le.1 hr
    refine ⟨m.keypad, m.timers, ?_, rfl, fun _ hk _ => hk⟩
    simp only [serve, load_of_tooLarge m hsize, Result.settle]
  | reset => exact absurd trivial hr
  | cycle => exact absurd rfl hcycle
  | tick => exact ⟨m.keypad, m.timers.tick, rfl, rfl, fun _ hk _ => hk⟩
  | setKey key isDown =>
    cases hkey : Keypad.key? key with
    | none =>
      refine ⟨m.keypad, m.timers, ?_, ?_, fun _ hk _ => hk⟩
      · rw [serve_setKey, hkey]
      · simp only [pressed?, hkey, Option.none_or]
    | some n =>
      refine ⟨m.keypad.set n isDown.truth, m.timers, serve_setKey_of_key hkey m isDown, ?_, ?_⟩
      · simp only [pressed?, hkey, latched_set]
      · intro k hk hrelease
        apply get_down_set hk
        rintro rfl
        cases hdown : isDown.truth with
        | true => rfl
        | false => exact absurd ⟨hkey, hdown⟩ hrelease

theorem after_aside (m : Machine ρ) {rs : List Request}
    (hrs : ∀ r ∈ rs, ¬r.Restarts ∧ r ≠ .cycle) :
    ∃ keypad timers, m.after rs = { m with keypad, timers } := by
  induction rs generalizing m with
  | nil => exact ⟨m.keypad, m.timers, rfl⟩
  | cons r rest ih =>
    obtain ⟨hr, hcycle⟩ := hrs r List.mem_cons_self
    obtain ⟨keypad, timers, hserve, -, -⟩ := serve_aside m hr hcycle
    rw [after_cons, hserve]
    exact ih _ fun r hr => hrs r (List.mem_cons_of_mem _ hr)

omit [Screen ρ] in
theorem pressed?_ne_of_down {m : Machine ρ} {k : Nibble} (hk : m.keypad.down.get k = true)
    (r : Request) : m.pressed? r ≠ some k := by
  intro hpressed
  unfold pressed? at hpressed
  split at hpressed
  · split at hpressed
    · split at hpressed
      · rename_i hup
        cases hpressed
        simp [hk] at hup
      · cases hpressed
    · cases hpressed
  · cases hpressed

omit [Screen ρ] in
theorem pressed?_of_up {m : Machine ρ} {key isDown : HostValue} {k : Nibble}
    (hkey : Keypad.key? key = some k) (hdown : isDown.truth = true)
    (hup : m.keypad.down.get k = false) : m.pressed? (.setKey key isDown) = some k := by
  simp only [pressed?, hkey, hdown, hup, Bool.not_false, Bool.and_self, if_true]

omit [Screen ρ] in
theorem pressed?_of_release {m : Machine ρ} {key isDown : HostValue}
    (hup : isDown.truth = false) : m.pressed? (.setKey key isDown) = none := by
  simp only [pressed?, hup, Bool.false_and]
  split <;> rfl

/-- A press counts even if the key is released again at once. -/
theorem lastPress_press_release {m : Machine ρ} {key press release : HostValue} {k : Nibble}
    (hkey : Keypad.key? key = some k) (hpress : press.truth = true)
    (hrelease : release.truth = false) (hup : m.keypad.down.get k = false) :
    m.lastPress [.setKey key press, .setKey key release] = some k := by
  rw [lastPress, lastPress, lastPress, pressed?_of_up hkey hpress hup,
    pressed?_of_release hrelease]
  rfl

end Machine

end Chip8
