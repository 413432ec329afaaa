import Chip8.Inputs
import Chip8.Proofs.KeyHistory
import Chip8.Proofs.Keymap

/-!
# The keys of the host

A window passes the keys of the host on to the keypad, batch by batch of events.  However the
events are cut into batches, a keypad key is down if the host key that is mapped to it was pressed
last, and the latch holds the last key that was pressed while it was up.
-/

namespace Chip8

/-! ## Events of the host -/

def HostValue.IsCode : HostValue → Prop
  | .list _ => False
  | .object _ => False
  | _ => True

namespace HostEvent

def Coded : HostEvent → Prop
  | .down code => code.IsCode
  | .up code => code.IsCode
  | _ => True

/-- Whether an event asks to quit: the window is closed, or escape goes down. -/
def quits : HostEvent → Bool
  | .quit => true
  | .down code => decide (code.whole? = some Inputs.escape)
  | _ => false

/-- The code of the key that an event presses or releases, and whether it goes down.  Escape going
down is no press. -/
def stroke? : HostEvent → Option (Int × Bool)
  | .down code => if code.whole? = some Inputs.escape then none else code.whole?.map (·, true)
  | .up code => code.whole?.map (·, false)
  | _ => none

theorem any_quits_iff {events : List HostEvent} :
    events.any quits = true ↔
      .quit ∈ events ∨ ∃ code, .down code ∈ events ∧ code.whole? = some Inputs.escape := by
  rw [List.any_eq_true]
  constructor
  · rintro ⟨e, he, hquits⟩
    cases e with
    | quit => exact Or.inl he
    | down code => exact Or.inr ⟨code, he, of_decide_eq_true hquits⟩
    | up code => cases hquits
    | other => cases hquits
  · rintro (hquit | ⟨code, hdown, hcode⟩)
    · exact ⟨.quit, hquit, rfl⟩
    · exact ⟨.down code, hdown, decide_eq_true hcode⟩

/-- Whether the key of a code is held after some events: it was pressed last. -/
def Held (code : Int) : List HostEvent → Prop :=
  Latest (fun _ e => e.stroke? = some (code, true))
    (fun _ e => ∃ isDown, e.stroke? = some (code, isDown))

/-- Whether an event presses the key of a code that was not held before. -/
def Fresh (code : Int) (before : List HostEvent) (e : HostEvent) : Prop :=
  e.stroke? = some (code, true) ∧ ¬Held code before

end HostEvent

namespace Inputs

variable {i : Inputs} {k : Keypad} {e : HostEvent}

def keyStroke? (i : Inputs) (e : HostEvent) : Option (Nibble × Bool) :=
  e.stroke?.bind fun stroke => (i.keymap.key? stroke.1).map (·, stroke.2)

def strike (i : Inputs) (k : Keypad) (e : HostEvent) : Keypad :=
  match i.keyStroke? e with
  | some (key, isDown) => k.set key isDown
  | none => k

theorem keyEvent_eq {code : HostValue} (hcode : code.IsCode) (isDown : Bool) :
    i.keyEvent k code isDown =
      .ok (match code.whole?.bind i.keymap.key? with
        | some key => (true, k.set key isDown)
        | none => (false, k)) := by
  have hkey : i.key? code = .ok (code.whole?.bind i.keymap.key?) := by
    cases code with
    | list items => exact hcode.elim
    | object fields => exact hcode.elim
    | _ => rfl
  unfold keyEvent
  rw [hkey]
  cases code.whole?.bind i.keymap.key? <;> rfl

theorem keyStroke?_down {code : HostValue} (h : code.whole? ≠ some escape) :
    i.keyStroke? (.down code) = (code.whole?.bind i.keymap.key?).map (·, true) := by
  unfold keyStroke? HostEvent.stroke?
  dsimp only
  rw [if_neg h]
  cases code.whole? <;> rfl

theorem keyStroke?_up (code : HostValue) :
    i.keyStroke? (.up code) = (code.whole?.bind i.keymap.key?).map (·, false) := by
  unfold keyStroke? HostEvent.stroke?
  dsimp only
  cases code.whole? <;> rfl

theorem handle_eq (hi : i.windowed = true) (he : e.Coded) :
    i.handle k e = .ok (e.quits, i.strike k e, []) := by
  cases e with
  | down code =>
    unfold handle strike HostEvent.quits
    dsimp only
    by_cases hescape : code.whole? = some escape
    · have hnone : i.keyStroke? (.down code) = none := by
        simp [keyStroke?, HostEvent.stroke?, hescape]
      rw [if_pos ⟨hi, hescape⟩, hnone, decide_eq_true hescape]
      rfl
    · rw [if_neg (fun h => hescape h.2), keyEvent_eq he, keyStroke?_down hescape, hi,
        decide_eq_false hescape]
      cases code.whole?.bind i.keymap.key? <;> rfl
  | up code =>
    unfold handle strike HostEvent.quits
    dsimp only
    rw [keyEvent_eq he, keyStroke?_up, hi]
    cases code.whole?.bind i.keymap.key? <;> rfl
  | quit => rfl
  | other => rfl

theorem handleAll_eq (hi : i.windowed = true) {batch : List HostEvent}
    (hbatch : ∀ e ∈ batch, e.Coded) :
    i.handleAll k batch = ⟨batch.foldl i.strike k, batch.any HostEvent.quits, [], none⟩ := by
  induction batch generalizing k with
  | nil => rfl
  | cons e rest ih =>
    obtain ⟨he, hrest⟩ := List.forall_mem_cons.1 hbatch
    simp only [handleAll, handle_eq hi he, ih hrest, List.nil_append]
    rfl

def after (i : Inputs) (k : Keypad) : List (List HostEvent) → Keypad
  | [] => k
  | batch :: rest => i.after (i.handleAll k batch).keypad rest

theorem after_eq (hi : i.windowed = true) {batches : List (List HostEvent)}
    (hevents : ∀ e ∈ batches.flatten, e.Coded) :
    i.after k batches = batches.flatten.foldl i.strike k := by
  induction batches generalizing k with
  | nil => rfl
  | cons batch rest ih =>
    rw [List.flatten_cons, List.forall_mem_append] at hevents
    obtain ⟨hbatch, hrest⟩ := hevents
    rw [after, handleAll_eq hi hbatch, ih hrest, List.flatten_cons, List.foldl_append]

/-! ## One event -/

theorem keyStroke?_eq_some_iff (hmap : i.keymap.codes.toList.Nodup) {key : Nibble}
    {isDown : Bool} :
    i.keyStroke? e = some (key, isDown) ↔ e.stroke? = some (i.keymap.codes.get key, isDown) := by
  unfold keyStroke?
  cases e.stroke? with
  | none => simp
  | some stroke =>
    obtain ⟨code, down⟩ := stroke
    simp only [Option.bind_some, Option.map_eq_some_iff, Prod.mk.injEq, Option.some.injEq,
      Keymap.key?_eq_some_iff hmap]
    constructor
    · rintro ⟨other, hother, rfl, rfl⟩
      exact ⟨hother.symm, rfl⟩
    · rintro ⟨rfl, rfl⟩
      exact ⟨key, rfl, rfl, rfl⟩

theorem get_down_strike (hmap : i.keymap.codes.toList.Nodup) (k : Keypad) (e : HostEvent)
    (key : Nibble) :
    (i.strike k e).down.get key = true ↔
      e.stroke? = some (i.keymap.codes.get key, true) ∨
        k.down.get key = true ∧ ¬∃ isDown, e.stroke? = some (i.keymap.codes.get key, isDown) := by
  simp only [← keyStroke?_eq_some_iff hmap]
  unfold strike
  cases i.keyStroke? e with
  | none => simp
  | some stroke =>
    obtain ⟨other, isDown⟩ := stroke
    simp [Keypad.down_set_iff]

theorem latched_strike (hmap : i.keymap.codes.toList.Nodup) (k : Keypad) (e : HostEvent)
    (key : Nibble) :
    (i.strike k e).latched = some key ↔
      (e.stroke? = some (i.keymap.codes.get key, true) ∧ k.down.get key = false) ∨
        k.latched = some key ∧ ¬∃ other, e.stroke? = some (i.keymap.codes.get other, true) ∧
          k.down.get other = false := by
  simp only [← keyStroke?_eq_some_iff hmap]
  unfold strike
  cases i.keyStroke? e with
  | none => simp
  | some stroke =>
    obtain ⟨other, isDown⟩ := stroke
    simp [Keypad.latched_set_iff, and_assoc]

/-! ## Any number of events -/

theorem get_down_struck (hmap : i.keymap.codes.toList.Nodup) (events : List HostEvent)
    (key : Nibble) :
    (events.foldl i.strike Keypad.released).down.get key = true ↔
      HostEvent.Held (i.keymap.codes.get key) events := by
  apply iff_latest (P := fun events =>
    (events.foldl i.strike Keypad.released).down.get key = true)
  · simp [Keypad.get_down_released]
  · intro events e
    rw [List.foldl_concat, get_down_strike hmap]

theorem get_down_struck_eq_false (hmap : i.keymap.codes.toList.Nodup) (events : List HostEvent)
    (key : Nibble) :
    (events.foldl i.strike Keypad.released).down.get key = false ↔
      ¬HostEvent.Held (i.keymap.codes.get key) events := by
  rw [← get_down_struck hmap, Bool.not_eq_true]

theorem latched_struck (hmap : i.keymap.codes.toList.Nodup) (events : List HostEvent)
    (key : Nibble) :
    (events.foldl i.strike Keypad.released).latched = some key ↔
      Latest (HostEvent.Fresh (i.keymap.codes.get key))
        (fun before e => ∃ other, HostEvent.Fresh (i.keymap.codes.get other) before e) events := by
  apply iff_latest (P := fun events =>
    (events.foldl i.strike Keypad.released).latched = some key)
  · exact (Option.some_ne_none key).symm
  · intro events e
    simp only [List.foldl_concat, latched_strike hmap, get_down_struck_eq_false hmap,
      HostEvent.Fresh]

theorem strike_of_unmapped (hmap : i.keymap.codes.toList.Nodup)
    (h : ∀ key isDown, e.stroke? ≠ some (i.keymap.codes.get key, isDown)) : i.strike k e = k := by
  unfold strike
  cases hstroke : i.keyStroke? e with
  | none => rfl
  | some stroke => exact absurd ((keyStroke?_eq_some_iff hmap).1 hstroke) (h stroke.1 stroke.2)

theorem after_of_unmapped (hi : i.windowed = true) (hmap : i.keymap.codes.toList.Nodup)
    {earlier later : List HostEvent} (hevents : ∀ f ∈ earlier ++ e :: later, f.Coded)
    (h : ∀ key isDown, e.stroke? ≠ some (i.keymap.codes.get key, isDown)) :
    i.after k [earlier ++ later] = i.after k [earlier ++ e :: later] := by
  have hrest : ∀ f ∈ earlier ++ later, f.Coded := by
    rw [List.forall_mem_append] at hevents ⊢
    exact ⟨hevents.1, (List.forall_mem_cons.1 hevents.2).2⟩
  rw [← List.flatten_singleton (l := earlier ++ later)] at hrest
  rw [← List.flatten_singleton (l := earlier ++ e :: later)] at hevents
  rw [after_eq hi hrest, after_eq hi hevents, List.flatten_singleton, List.flatten_singleton,
    List.foldl_append, List.foldl_append, List.foldl_cons, strike_of_unmapped hmap h]

/-- A window with any keymap that was read takes in any batches of events.  No batch fails, and it
asks to quit exactly if its window was closed or escape went down.  A key of the keypad is down
if the host key that is mapped to it was pressed last, where escape going down counts for nothing,
and the latch holds the last key that was pressed while it was not held.  An event that strikes no
mapped key changes nothing, and neither does another cut of the events into batches. -/
theorem keypad_follows_host_keys {text : String} {batches : List (List HostEvent)}
    (hi : i.windowed = true) (hmap : Keymap.parse text = .ok i.keymap)
    (hevents : ∀ e ∈ batches.flatten, e.Coded) :
    (∀ batch ∈ batches, ∀ k : Keypad, (i.handleAll k batch).failure = none ∧
      ((i.handleAll k batch).quit = true ↔
        .quit ∈ batch ∨ ∃ code : HostValue, .down code ∈ batch ∧ code.whole? = some escape)) ∧
    (∀ key, (i.after Keypad.released batches).down.get key = true ↔
      HostEvent.Held (i.keymap.codes.get key) batches.flatten) ∧
    (∀ key, (i.after Keypad.released batches).latched = some key ↔
      Latest (HostEvent.Fresh (i.keymap.codes.get key))
        (fun before e => ∃ other, HostEvent.Fresh (i.keymap.codes.get other) before e)
        batches.flatten) ∧
    (∀ earlier e later, batches.flatten = earlier ++ e :: later →
      (∀ key isDown, e.stroke? ≠ some (i.keymap.codes.get key, isDown)) →
      i.after Keypad.released [earlier ++ later] = i.after Keypad.released batches) ∧
    ∀ others : List (List HostEvent), others.flatten = batches.flatten →
      i.after Keypad.released others = i.after Keypad.released batches := by
  have hcodes := Keymap.nodup_of_parse hmap
  have hafter : i.after Keypad.released batches = batches.flatten.foldl i.strike Keypad.released :=
    after_eq hi hevents
  have hcut : ∀ others : List (List HostEvent), others.flatten = batches.flatten →
      i.after Keypad.released others = i.after Keypad.released batches := by
    intro others hflat
    rw [← hflat] at hevents
    rw [hafter, after_eq hi hevents, hflat]
  refine ⟨?_, ?_, ?_, ?_, hcut⟩
  · intro batch hbatch k
    have hbatch : ∀ e ∈ batch, e.Coded := fun e he =>
      hevents e (List.mem_flatten.2 ⟨batch, hbatch, he⟩)
    rw [handleAll_eq hi hbatch]
    exact ⟨rfl, HostEvent.any_quits_iff⟩
  · intro key
    rw [hafter, get_down_struck hcodes]
  · intro key
    rw [hafter, latched_struck hcodes]
  · intro earlier e later hflat hidle
    rw [← hcut [earlier ++ e :: later] (List.flatten_singleton.trans hflat.symm)]
    rw [hflat] at hevents
    exact after_of_unmapped hi hcodes hevents hidle

def escaping : Inputs where
  keymap := ⟨#v[27, 49, 50, 51, 113, 119, 101, 97, 115, 100, 122, 99, 52, 114, 102, 118]⟩
  windowed := true

/-- A key that goes down after the window was closed still counts, and escape going down asks to
quit and presses nothing, though it is mapped. -/
theorem keypad_of_closed_window :
    Keymap.parse "27,49,50,51,113,119,101,97,115,100,122,99,52,114,102,118" =
      .ok escaping.keymap ∧
    (escaping.handleAll Keypad.released
      [.down (.int 49), .quit, .down (.int 50)]).quit = true ∧
    HostEvent.Held 50 [.down (.int 49), .quit, .down (.int 50), .up (.int 49), .down (.int 27)] ∧
    ¬HostEvent.Held 27 [.down (.int 49), .quit, .down (.int 50), .up (.int 49), .down (.int 27)] ∧
    escaping.after Keypad.released
        [[.down (.int 49)], [.quit, .down (.int 50), .up (.int 49), .down (.int 27)]] =
      escaping.after Keypad.released
        [[.down (.int 49), .quit, .down (.int 50)], [.up (.int 49), .down (.int 27)]] := by
  have hparse : Keymap.parse "27,49,50,51,113,119,101,97,115,100,122,99,52,114,102,118" =
      .ok escaping.keymap := by
    decide +kernel
  have hcoded : ∀ e ∈ [[HostEvent.down (.int 49), .quit, .down (.int 50)],
      [.up (.int 49), .down (.int 27)]].flatten, e.Coded := by
    simp [HostEvent.Coded, HostValue.IsCode]
  obtain ⟨hpolled, hdown, -, -, hcut⟩ := keypad_follows_host_keys rfl hparse hcoded
  have hescape : (escaping.after Keypad.released
      [[.down (.int 49), .quit, .down (.int 50)], [.up (.int 49), .down (.int 27)]]).down.get 0 =
        false := by
    decide +kernel
  refine ⟨hparse, ?_, (hdown 2).1 (by decide +kernel), fun hheld => ?_, hcut _ rfl⟩
  · exact ((hpolled _ List.mem_cons_self _).2).2 (Or.inl (by simp))
  · exact Bool.false_ne_true (hescape.symm.trans ((hdown 0).2 hheld))

end Inputs

end Chip8
