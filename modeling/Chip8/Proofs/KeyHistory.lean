import Mathlib.Data.List.Induction
import Chip8.Keypad
import Chip8.Proofs.Decimal

/-!
# The keypad after any history

Whatever happened to a keypad, a key is down if it was pressed last, and the latch holds the last
key that went from up to down since the latch was cleared.
-/

namespace Chip8

/-! ## Histories -/

section

variable {α : Type} {p q : List α → α → Prop} {events : List α} {e : α}

/-- Whether some event of a history meets `p` and none after it meets `q`, where it counts what was
there before the event. -/
def Latest (p q : List α → α → Prop) (events : List α) : Prop :=
  ∃ before e later, events = before ++ e :: later ∧ p before e ∧
    ∀ mid f, mid ++ [f] <+: later → ¬q (before ++ e :: mid) f

theorem not_latest_nil : ¬Latest p q [] := by
  rintro ⟨before, e, later, hnil, -⟩
  simp at hnil

theorem latest_concat_iff :
    Latest p q (events ++ [e]) ↔ p events e ∨ Latest p q events ∧ ¬q events e := by
  constructor
  · rintro ⟨before, f, later, heq, hp, hq⟩
    rcases later.eq_nil_or_concat with rfl | ⟨later, g, rfl⟩
    · obtain ⟨rfl, hlast⟩ := List.append_inj' heq rfl
      cases hlast
      exact Or.inl hp
    · rw [List.concat_eq_append, ← List.cons_append, ← List.append_assoc] at heq
      obtain ⟨rfl, hlast⟩ := List.append_inj' heq rfl
      cases hlast
      rw [List.concat_eq_append] at hq
      refine Or.inr ⟨⟨before, f, later, rfl, hp, ?_⟩, hq later e (List.prefix_refl _)⟩
      exact fun mid g hmid => hq mid g (hmid.trans (List.prefix_append later [e]))
  · rintro (hp | ⟨⟨before, f, later, rfl, hp, hq⟩, he⟩)
    · exact ⟨events, e, [], rfl, hp, fun mid f hmid => by simp at hmid⟩
    · refine ⟨before, f, later ++ [e], by simp, hp, ?_⟩
      intro mid g hmid
      rcases List.prefix_concat_iff.1 hmid with heq | hbefore
      · obtain ⟨rfl, hlast⟩ := List.append_inj' heq rfl
        cases hlast
        exact he
      · exact hq mid g hbefore

/-- What `p` brings about and `q` undoes, one event after the other, holds if the latest event of
the two met `p`. -/
theorem iff_latest {P : List α → Prop} (hnil : ¬P [])
    (hconcat : ∀ events e, P (events ++ [e]) ↔ p events e ∨ P events ∧ ¬q events e)
    (events : List α) : P events ↔ Latest p q events := by
  induction events using List.reverseRecOn with
  | nil => exact iff_of_false hnil not_latest_nil
  | append_singleton events e ih => rw [hconcat, latest_concat_iff, ih]

end

namespace Keypad

inductive Event
  | set (key isDown : HostValue)
  | clearLatch
  | reset

def serve (k : Keypad) : Event → Keypad × Except Error Unit
  | .set key isDown =>
    match k.setKey key isDown with
    | .ok k' => (k', .ok ())
    | .error e => (k, .error e)
  | .clearLatch => (k.clearLatch, .ok ())
  | .reset => (released, .ok ())

def after (k : Keypad) : List Event → Keypad
  | [] => k
  | e :: rest => (k.serve e).1.after rest

def Event.Sets (key : Nibble) (isDown : Bool) (e : Event) : Prop :=
  ∃ value, e = .set (.int (key : Nat)) value ∧ value.truth = isDown

theorem after_concat (k : Keypad) (events : List Event) (e : Event) :
    k.after (events ++ [e]) = ((k.after events).serve e).1 := by
  induction events generalizing k with
  | nil => rfl
  | cons f rest ih => exact ih (k.serve f).1

/-! ## One event -/

theorem key?_eq_some_iff {value : HostValue} {key : Nibble} :
    key? value = some key ↔ value = .int (key : Nat) := by
  constructor
  · intro h
    cases value with
    | int n =>
      simp only [key?] at h
      split at h
      · rename_i hn
        cases h
        exact congrArg HostValue.int (Int.toNat_of_nonneg hn.1).symm
      · cases h
    | _ => cases h
  · rintro rfl
    have hkey := key.isLt
    simp only [key?]
    rw [dif_pos (by omega)]
    exact congrArg some (Fin.ext (Int.toNat_natCast _))

theorem latched_set_of_not_press {k : Keypad} {key : Nibble} {isDown : Bool}
    (h : ¬(isDown = true ∧ k.down.get key = false)) :
    (k.set key isDown).latched = k.latched := by
  simp only [Keypad.set, Bool.and_eq_true, Bool.not_eq_true', if_neg h]

theorem get_down_released (key : Nibble) : released.down.get key = false :=
  Nibble.get_replicate false key

theorem down_set_iff (k : Keypad) (key other : Nibble) (isDown : Bool) :
    (k.set other isDown).down.get key = true ↔
      (other = key ∧ isDown = true) ∨ k.down.get key = true ∧ other ≠ key := by
  simp only [Keypad.set, Nibble.get_update]
  by_cases heq : other = key <;> simp [heq]

theorem latched_set_iff (k : Keypad) (key other : Nibble) (isDown : Bool) :
    (k.set other isDown).latched = some key ↔
      ((other = key ∧ isDown = true) ∧ k.down.get key = false) ∨
        k.latched = some key ∧ ¬(isDown = true ∧ k.down.get other = false) := by
  by_cases hpress : isDown = true ∧ k.down.get other = false
  · have hset : (k.set other isDown).latched = some other := by
      simp [Keypad.set, hpress.1, hpress.2]
    rw [hset, Option.some.injEq]
    constructor
    · rintro rfl
      exact Or.inl ⟨⟨rfl, hpress.1⟩, hpress.2⟩
    · rintro (⟨⟨heq, -⟩, -⟩ | ⟨-, hidle⟩)
      · exact heq
      · exact absurd hpress hidle
  · rw [latched_set_of_not_press hpress]
    constructor
    · exact fun hlatched => Or.inr ⟨hlatched, hpress⟩
    · rintro (⟨⟨rfl, hdown⟩, hup⟩ | ⟨hlatched, -⟩)
      · exact absurd ⟨hdown, hup⟩ hpress
      · exact hlatched

/-- Whether a key is held after a history: it was pressed last, and nothing was reset since. -/
def Held (key : Nibble) : List Event → Prop :=
  Latest (fun _ e => e.Sets key true) (fun _ e => e = .reset ∨ ∃ down, e.Sets key down)

/-- Whether an event presses a key that was not held before. -/
def Fresh (key : Nibble) (before : List Event) (e : Event) : Prop :=
  e.Sets key true ∧ ¬Held key before

end Keypad

end Chip8
