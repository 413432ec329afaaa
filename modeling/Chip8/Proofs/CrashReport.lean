import Chip8.Proofs.Effect
import Chip8.Proofs.Hex

/-!
# What a crash report tells

Digits of a known width tell their number and where the text goes on after them.  The numbers of a
reachable machine fit the widths at which they are written, so its report is read from left to
right: the registers, the index, the timers and what is at hand; then the items of the stack, up to
the end of their line; and what is left is the reason.
-/

namespace Chip8

namespace Text

variable {s t : String} {width : Nat} {a b : Int}

def FitsIn (width : Nat) (a : Int) : Prop := 0 ≤ a ∧ a < (16 ^ width : Nat)

theorem fitsIn_byte (b : UInt8) : FitsIn 2 b.toNat := by
  have := b.toNat_lt
  unfold FitsIn
  omega

theorem fitsIn_address (h : IsAddress a) : FitsIn 3 a := h

theorem fitsIn_word (h : IsWord a) : FitsIn 4 a := by
  unfold IsWord at h
  unfold FitsIn
  omega

/-- Digits of a known width tell their number, and where the text goes on. -/
theorem hex_append_inj (ha : FitsIn (width + 1) a) (hb : FitsIn (width + 1) b)
    (h : hex (width + 1) a ++ s = hex (width + 1) b ++ t) : a = b ∧ s = t := by
  lift a to Nat using ha.1
  lift b to Nat using hb.1
  have ha : a < 16 ^ (width + 1) := Int.ofNat_lt.1 ha.2
  have hb : b < 16 ^ (width + 1) := Int.ofNat_lt.1 hb.2
  have hlists := congrArg String.toList h
  simp only [hex_natCast, String.toList_append, String.toList_ofList] at hlists
  have hlength : (hexDigits (width + 1) a).length = (hexDigits (width + 1) b).length := by
    rw [length_hexDigits ha, length_hexDigits hb]
  obtain ⟨hdigits, hrest⟩ := List.append_inj hlists hlength
  exact ⟨congrArg Nat.cast (hexDigits_inj ha hb hdigits), String.toList_inj.1 hrest⟩

theorem labelled_hex_append_inj {label : String} (ha : FitsIn (width + 1) a)
    (hb : FitsIn (width + 1) b)
    (h : label ++ (hex (width + 1) a ++ s) = label ++ (hex (width + 1) b ++ t)) : a = b ∧ s = t :=
  hex_append_inj ha hb ((String.append_right_inj label).1 h)

theorem hexBytes_cons (b : UInt8) (bytes : List UInt8) :
    hexBytes (b :: bytes) = hex 2 b.toNat ++ hexBytes bytes := by
  rw [hex_natCast]
  unfold hexBytes
  rw [List.flatMap_cons, String.ofList_append]

theorem hexBytes_append_inj {xs ys : List UInt8} (hlength : xs.length = ys.length)
    (h : hexBytes xs ++ s = hexBytes ys ++ t) : xs = ys ∧ s = t := by
  induction xs generalizing ys with
  | nil =>
    obtain rfl := List.length_eq_zero_iff.1 hlength.symm
    exact ⟨rfl, (String.append_right_inj _).1 h⟩
  | cons x xs ih =>
    cases ys with
    | nil => cases hlength
    | cons y ys =>
      rw [hexBytes_cons, hexBytes_cons, String.append_assoc, String.append_assoc] at h
      obtain ⟨hxy, h⟩ := hex_append_inj (fitsIn_byte x) (fitsIn_byte y) h
      obtain ⟨rfl, hst⟩ := ih (Nat.succ.inj hlength) h
      rw [UInt8.toNat_inj.1 (Int.ofNat_inj.1 hxy)]
      exact ⟨rfl, hst⟩

end Text

namespace Machine

open Text

variable {m n : Machine Grid} {s t : String}

def itemsText (items : List Int) : String :=
  String.join (items.map fun item => " 0x" ++ hex 3 item)

theorem itemsText_cons (item : Int) (items : List Int) :
    itemsText (item :: items) = " 0x" ++ (hex 3 item ++ itemsText items) := by
  unfold itemsText
  rw [List.map_cons, String.join_cons, String.append_assoc]

/-- An item goes on after a blank and a blank line ends the stack, so that neither is the other. -/
theorem itemsText_append_inj {xs ys : List Int} (hxs : ∀ a ∈ xs, IsAddress a)
    (hys : ∀ a ∈ ys, IsAddress a)
    (h : itemsText xs ++ ("\n\n" ++ s) = itemsText ys ++ ("\n\n" ++ t)) : xs = ys ∧ s = t := by
  induction xs generalizing ys with
  | nil =>
    cases ys with
    | nil => exact ⟨rfl, (String.append_right_inj _).1 ((String.append_right_inj _).1 h)⟩
    | cons y ys =>
      rw [itemsText_cons] at h
      simpa [itemsText] using congrArg String.toList h
  | cons x xs ih =>
    cases ys with
    | nil =>
      rw [itemsText_cons] at h
      simpa [itemsText] using congrArg String.toList h
    | cons y ys =>
      obtain ⟨hx, hxs⟩ := List.forall_mem_cons.1 hxs
      obtain ⟨hy, hys⟩ := List.forall_mem_cons.1 hys
      simp only [itemsText_cons, String.append_assoc] at h
      obtain ⟨hxy, hrest⟩ := labelled_hex_append_inj (fitsIn_address hx) (fitsIn_address hy) h
      obtain ⟨rfl, hst⟩ := ih hxs hys hrest
      exact ⟨congrArg (· :: xs) hxy, hst⟩

def stackText (items : List Int) : String :=
  if items.isEmpty then " (Empty)" else itemsText items

theorem stackText_append_inj {xs ys : List Int} (hxs : ∀ a ∈ xs, IsAddress a)
    (hys : ∀ a ∈ ys, IsAddress a)
    (h : stackText xs ++ ("\n\n" ++ s) = stackText ys ++ ("\n\n" ++ t)) : xs = ys ∧ s = t := by
  unfold stackText at h
  cases xs with
  | nil =>
    cases ys with
    | nil => exact ⟨rfl, (String.append_right_inj _).1 ((String.append_right_inj _).1 h)⟩
    | cons y ys =>
      simp only [List.isEmpty_nil, List.isEmpty_cons, itemsText_cons] at h
      simpa using congrArg String.toList h
  | cons x xs =>
    cases ys with
    | nil =>
      simp only [List.isEmpty_nil, List.isEmpty_cons, itemsText_cons] at h
      simpa using congrArg String.toList h
    | cons y ys => exact itemsText_append_inj hxs hys h

/-! ## Whole reports -/

theorem crashReport_eq (m : Machine Grid) (reason : String) :
    m.crashReport reason =
      "Emulation halted.\n\nV: 0x" ++ (hexBytes m.v.toList.reverse ++
        (" I: 0x" ++ (hex 3 m.index ++
        (" DT: 0x" ++ (hex 2 m.timers.delay.toNat ++
        (" ST: 0x" ++ (hex 2 m.timers.sound.toNat ++
        (" PC: 0x" ++ (hex 3 m.address ++
        (" OP: 0x" ++ (hex 4 m.word ++
        (" IN: ???\nStack:" ++ (stackText m.stack.toList ++ ("\n\n" ++ reason)))))))))))))) := by
  have hitems : m.stack.toList.isEmpty = m.stack.items.isEmpty := List.isEmpty_reverse
  unfold crashReport describeFully describe describeStack registerText stackText itemsText
  rw [hitems]
  simp only [String.append_assoc]
  rfl

/-- Reachable machines are reported alike exactly if they have the same registers, index, timers and
call stack, have the same word at hand, at the same address, and stopped for the same reason. -/
theorem crashReport_eq_crashReport_iff (hm : Reachable m) (hn : Reachable n)
    {reason reason' : String} :
    m.crashReport reason = n.crashReport reason' ↔
      m.v = n.v ∧ m.index = n.index ∧ m.timers = n.timers ∧ m.address = n.address ∧
        m.word = n.word ∧ m.stack = n.stack ∧ reason = reason' := by
  have hm := hm.legal
  have hn := hn.legal
  constructor
  · intro h
    -- From left to right: each equation gives a number and leaves what follows it.
    rw [crashReport_eq, crashReport_eq] at h
    have hlength : m.v.toList.reverse.length = n.v.toList.reverse.length := by simp
    obtain ⟨hv, h⟩ := hexBytes_append_inj hlength ((String.append_right_inj _).1 h)
    obtain ⟨hindex, h⟩ :=
      labelled_hex_append_inj (fitsIn_address hm.index) (fitsIn_address hn.index) h
    obtain ⟨hdelay, h⟩ := labelled_hex_append_inj (fitsIn_byte _) (fitsIn_byte _) h
    obtain ⟨hsound, h⟩ := labelled_hex_append_inj (fitsIn_byte _) (fitsIn_byte _) h
    obtain ⟨haddress, h⟩ :=
      labelled_hex_append_inj (fitsIn_address hm.address) (fitsIn_address hn.address) h
    obtain ⟨hword, h⟩ := labelled_hex_append_inj (fitsIn_word hm.word) (fitsIn_word hn.word) h
    obtain ⟨hitems, hreason⟩ :=
      stackText_append_inj (fun a ha => hm.items a (List.mem_reverse.1 ha))
        (fun a ha => hn.items a (List.mem_reverse.1 ha)) ((String.append_right_inj _).1 h)
    have hv : m.v = n.v := Vector.toList_inj.1 (List.reverse_inj.1 hv)
    have htimers : m.timers = n.timers := by
      rw [Timers.mk.injEq]
      exact ⟨UInt8.toNat_inj.1 (Int.ofNat_inj.1 hdelay),
        UInt8.toNat_inj.1 (Int.ofNat_inj.1 hsound)⟩
    -- The limit of a stack is not reported, but it is that of every reachable machine.
    have hstack : m.stack = n.stack := by
      rw [CallStack.mk.injEq]
      exact ⟨hm.limit.trans hn.limit.symm, List.reverse_inj.1 hitems⟩
    exact ⟨hv, hindex, htimers, haddress, hword, hstack, hreason⟩
  · rintro ⟨hv, hindex, htimers, haddress, hword, hstack, rfl⟩
    rw [crashReport_eq, crashReport_eq, hv, hindex, htimers, haddress, hword, hstack]

/-- A program that calls itself over and over: what its machine looks like after one call and after
two differs in the call stack alone, and that is reported. -/
theorem crashReport_of_calls_in_a_loop :
    Reachable ((usual.loaded #[0x22, 0x00]).after [.cycle]) ∧
      Reachable ((usual.loaded #[0x22, 0x00]).after [.cycle, .cycle]) ∧
      ((usual.loaded #[0x22, 0x00]).after [.cycle]).describe "???" =
        ((usual.loaded #[0x22, 0x00]).after [.cycle, .cycle]).describe "???" ∧
      ((usual.loaded #[0x22, 0x00]).after [.cycle]).crashReport "" ≠
        ((usual.loaded #[0x22, 0x00]).after [.cycle, .cycle]).crashReport "" := by
  obtain ⟨m, heq⟩ : ∃ m, m = usual.loaded #[0x22, 0x00] := ⟨_, rfl⟩
  rw [← heq]
  have hsize : (#[0x22, 0x00] : Array UInt8).size ≤ programLimit := by decide
  have hm : Running #[0x22, 0x00] 0 m := by
    rw [heq]
    exact running_loaded hsize
  have hcall : ∀ n, Running #[0x22, 0x00] 0 n → n.stack.depth < 16 →
      n.cycle.machine = (n.takeUp 0x2200).executed (.call 0x200) ∧
        Running #[0x22, 0x00] 0 n.cycle.machine := by
    intro n hn hroom
    have hupcoming : n.upcoming = 0x2200 := hn.upcoming_eq hsize rfl rfl
    have hw : Instruction.ofWord? n.upcoming = some (.call 0x200) := by
      rw [hupcoming]
      rfl
    have hlimit : n.stack.limit = 16 := hn.sound.limit
    have hfree : ¬n.stack.limit ≤ n.stack.depth := by omega
    rw [← hupcoming]
    exact hn.cycle hw (if_neg hfree) rfl rfl
  have hitems : m.stack.items = [] := by
    rw [heq]
    rfl
  obtain ⟨honce, hn⟩ := hcall m hm (by simp [CallStack.depth, hitems])
  have hitems' : m.cycle.machine.stack.items = [wrapAddress (m.pc + 2)] := by
    rw [← hitems, honce]
    rfl
  obtain ⟨htwice, hk⟩ := hcall m.cycle.machine hn (by simp [CallStack.depth, hitems'])
  have hafter : m.after [.cycle] = m.cycle.machine := by
    rw [after_cons, after_nil, serve_cycle]
  have hafter' : m.after [.cycle, .cycle] = m.cycle.machine.cycle.machine := by
    rw [after_cons, after_cons, after_nil, serve_cycle, serve_cycle]
  rw [hafter, hafter']
  refine ⟨hn.reachable, hk.reachable, ?_, ?_⟩
  · have haddress : m.cycle.machine.address = m.cycle.machine.cycle.machine.address := by
      rw [htwice]
      show _ = m.cycle.machine.pc
      rw [hn.pc, ← hm.pc, honce]
      rfl
    have hword : m.cycle.machine.word = m.cycle.machine.cycle.machine.word := by
      rw [htwice, honce]
      rfl
    unfold describe registerText
    rw [haddress, hword, htwice]
    rfl
  · intro h
    have hstack := ((crashReport_eq_crashReport_iff hn.reachable hk.reachable).1 h).2.2.2.2.2.1
    have hlengths := congrArg CallStack.depth hstack
    rw [htwice] at hlengths
    simp [CallStack.depth, executed, stackAfter, takeUp, hitems'] at hlengths

end Machine

end Chip8
