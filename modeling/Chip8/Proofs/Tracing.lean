import Chip8.Proofs.Fault
import Chip8.Proofs.Invariant
import Chip8.Proofs.Unread

/-!
# Tracing

A machine that traces its instructions and one that does not are asked the same, become the same
and answer the same; what the first one prints is a line for each word that decodes, made of what
the machine was before.
-/

namespace Chip8.Machine

variable {ρ : Type}

def watched (m : Machine ρ) (live : Bool) : Machine ρ := m.marked m.word live

/-- The line of an instruction, made of the machine that has not taken up its word yet. -/
def line (m : Machine ρ) (w : Word) (i : Instruction) : String :=
  "V: 0x" ++ m.registerText
    ++ " I: 0x" ++ Text.hex 3 m.index
    ++ " DT: 0x" ++ Text.hex 2 m.timers.delay.toNat
    ++ " ST: 0x" ++ Text.hex 2 m.timers.sound.toNat
    ++ " PC: 0x" ++ Text.hex 3 m.pc
    ++ " OP: 0x" ++ Text.hex 4 w
    ++ " IN: " ++ i.mnemonic

variable [Screen ρ]

/-! ## The same states and results -/

section Watched

variable (m : Machine ρ) (live : Bool)

theorem reset_watched :
    (m.watched live).reset = mapState (watched · live) m.reset := by
  have hmemory : (m.watched live).memory = m.memory := rfl
  have hdisplay : (m.watched live).display = m.display := rfl
  simp only [reset, hmemory, hdisplay]
  cases m.memory.clear.writeBlock glyphs font with
  | error e => rfl
  | ok memory => cases m.display.clear <;> rfl

theorem load_watched (program : Array UInt8) :
    (m.watched live).load program = mapState (watched · live) (m.load program) := by
  unfold load
  rw [reset_watched]
  split
  · rfl
  · cases m.reset with
    | error e n => rfl
    | ok u n =>
      have hmemory : (n.watched live).memory = n.memory := rfl
      simp only [mapState, hmemory]
      cases n.memory.writeBlock origin program <;> rfl

theorem perform_watched :
    (m.watched live).perform.machine = m.perform.machine.watched live ∧
      (m.watched live).perform.outcome = m.perform.outcome := by
  have hmarked := perform_marked m live
  unfold watched
  rwa [(perform_keeps m).1]

theorem cycle_watched :
    (m.watched live).cycle.machine = m.cycle.machine.watched live ∧
      (m.watched live).cycle.outcome = m.cycle.outcome := by
  have hfault : (m.watched live).fault = m.fault := rfl
  have hfetch : (m.watched live).fetch = m.fetch := rfl
  simp only [cycle, hfault, hfetch]
  cases m.fault with
  | some f => exact ⟨rfl, rfl⟩
  | none =>
    cases m.fetch with
    | error e => exact ⟨rfl, rfl⟩
    | ok w =>
      have htakeUp : (m.watched live).takeUp w = (m.takeUp w).watched live := rfl
      obtain ⟨hmachine, houtcome⟩ := perform_watched (m.takeUp w) live
      simp only [htakeUp, houtcome]
      -- A fault is recorded in both machines, and everything else is left as it is.
      split
      · exact ⟨congrArg (halt · _) hmachine, rfl⟩
      · exact ⟨hmachine, houtcome⟩

omit [Screen ρ] in
theorem settle_mapState (r : Result ρ Unit) :
    (Result.settle (mapState (watched · live) r)).1 = (Result.settle r).1.watched live ∧
      (Result.settle (mapState (watched · live) r)).2 = (Result.settle r).2 := by
  cases r <;> exact ⟨rfl, rfl⟩

theorem serve_watched (r : Request) :
    ((m.watched live).serve r).1 = (m.serve r).1.watched live ∧
      ((m.watched live).serve r).2.result = (m.serve r).2.result := by
  cases r with
  | load program =>
    obtain ⟨hmachine, hreport⟩ := settle_mapState live (m.load program)
    simp only [serve, load_watched]
    exact ⟨hmachine, congrArg Report.result hreport⟩
  | reset =>
    obtain ⟨hmachine, hreport⟩ := settle_mapState live m.reset
    simp only [serve, reset_watched]
    exact ⟨hmachine, congrArg Report.result hreport⟩
  | cycle =>
    obtain ⟨hmachine, houtcome⟩ := cycle_watched m live
    simp only [serve, settleTurn, houtcome]
    cases m.cycle.outcome with
    | ok d => exact ⟨hmachine, rfl⟩
    | error e => exact ⟨hmachine, rfl⟩
  | tick => exact ⟨rfl, rfl⟩
  | setKey key isDown =>
    have hkeypad : (m.watched live).keypad = m.keypad := rfl
    simp only [serve, setKey, hkeypad]
    cases m.keypad.setKey key isDown <;> exact ⟨rfl, rfl⟩

theorem after_watched (rs : List Request) :
    (m.watched live).after rs = (m.after rs).watched live := by
  induction rs generalizing m with
  | nil => rfl
  | cons r rest ih => rw [after_cons, after_cons, (serve_watched m live r).1, ih]

theorem results_watched (rs : List Request) :
    ((m.watched live).reports rs).map Report.result = (m.reports rs).map Report.result := by
  induction rs generalizing m with
  | nil => rfl
  | cons r rest ih =>
    obtain ⟨hmachine, hresult⟩ := serve_watched m live r
    simp only [reports, List.map_cons, hmachine, hresult, ih]

def Result.machine? : Result ρ Unit → Except Error (Machine ρ)
  | .ok () m => .ok m
  | .error e _ => .error e

theorem new_watched (memory : Memory) (depth : Int) (display : Display ρ) (random : RandomSource)
    (indexOverflow : Bool) :
    new memory depth display random indexOverflow live =
      (new memory depth display random indexOverflow true).map (watched · live) := by
  let base : Machine ρ :=
    { memory, display, random, indexOverflow
      live := true
      stack := CallStack.empty depth
      keypad := Keypad.released
      timers := Timers.stopped
      v := Vector.replicate 16 0
      index := 0
      pc := origin
      address := origin
      word := 0
      keys := Keypad.released.down
      awaiting := false
      fault := none }
  calc new memory depth display random indexOverflow live
      = Result.machine? (base.watched live).reset := rfl
    _ = Result.machine? (mapState (watched · live) base.reset) := by rw [reset_watched]
    _ = (Result.machine? base.reset).map (watched · live) := by cases base.reset <;> rfl

end Watched

/-! ## What is printed -/

variable {m : Machine ρ}

theorem live_after (rs : List Request) : (m.after rs).live = m.live := by
  have h : m.after rs = (m.after rs).watched m.live := after_watched m m.live rs
  have hlive := congrArg Machine.live h
  exact hlive

theorem printed_perform :
    m.perform.printed =
      match Instruction.ofWord? m.word with
      | some i => if m.live then some (m.describe i.mnemonic) else none
      | none => none := by
  unfold perform decode
  cases Instruction.ofWord? m.word with
  | none => rfl
  | some i =>
    simp only [Decoded.of]
    cases m.execute i <;> rfl

/-- A fault that comes after the line does not take it back. -/
theorem printed_cycle {w : Word} (hf : m.fault = none) (hfetch : m.fetch = .ok w) :
    m.cycle.printed = (m.takeUp w).perform.printed := by
  unfold cycle
  simp only [hf, hfetch]
  split <;> rfl

theorem printed_cycle_eq_some_iff {text : String} :
    m.cycle.printed = some text ↔
      m.live ∧ m.fault = none ∧
        ∃ w d, m.fetch = .ok w ∧ decode w (some m.pc) = .ok d ∧
          text = m.line w d.instruction := by
  cases hf : m.fault with
  | some f => simp [cycle_of_halted hf]
  | none =>
    cases hfetch : m.fetch with
    | error e => simp [cycle, hf, hfetch]
    | ok w =>
      have hword : (m.takeUp w).word = w := rfl
      have hlive : (m.takeUp w).live = m.live := rfl
      rw [printed_cycle hf hfetch, printed_perform, hword, hlive]
      cases hi : Instruction.ofWord? w with
      | none => simp [decode, hi]
      | some i =>
        have hline : (m.takeUp w).describe i.mnemonic = m.line w i := rfl
        simp only [hline]
        constructor
        · intro h
          split at h
          · rename_i hlive
            exact ⟨hlive, trivial, w, .of w i, rfl, decode_of_ofWord? hi, (Option.some.inj h).symm⟩
          · cases h
        · rintro ⟨hlive, -, w', d, hw, hd, htext⟩
          cases hw
          rw [decode_of_ofWord? hi] at hd
          cases hd
          rw [if_pos hlive, htext]
          rfl

omit [Screen ρ] in
theorem printed_settle (r : Result ρ Unit) : (Result.settle r).2.printed = none := by
  cases r <;> rfl

omit [Screen ρ] in
theorem printed_settleTurn (turn : Turn ρ) : (settleTurn turn).2.printed = turn.printed := by
  unfold settleTurn
  cases turn.outcome <;> rfl

theorem printed_serve_eq_some_iff {r : Request} {text : String} :
    (m.serve r).2.printed = some text ↔ r = .cycle ∧ m.cycle.printed = some text := by
  cases r with
  | load program => simp [serve, printed_settle]
  | reset => simp [serve, printed_settle]
  | cycle => simp [serve, printed_settleTurn]
  | tick => simp [serve]
  | setKey key isDown =>
    simp only [serve]
    cases m.setKey key isDown <;> simp

theorem printed_of_unwatched {m : Machine ρ} (hlive : m.live = false) {rs : List Request}
    {report : Report} (h : report ∈ m.reports rs) : report.printed = none := by
  induction rs generalizing m with
  | nil => cases h
  | cons r rest ih =>
    rcases List.mem_cons.1 h with rfl | h
    · refine Option.eq_none_iff_forall_ne_some.2 fun text htext => ?_
      obtain ⟨-, hcycle⟩ := printed_serve_eq_some_iff.1 htext
      obtain ⟨htrue, -⟩ := printed_cycle_eq_some_iff.1 hcycle
      exact absurd htrue (by rw [hlive]; decide)
    · have hnext : (m.serve r).1.live = false := (live_after [r]).trans hlive
      exact ih hnext h

/-- Usual machines that differ in whether they trace become the same, but for that, and answer the
same, whatever they are asked.  The one that does not trace prints nothing.  The other prints a
line in just those cycles that are not halted and come to a word that decodes, also if the
instruction then fails: a line made of what the machine was before. -/
theorem tracing_only_observes {display : Display ρ} {random : RandomSource} {indexOverflow : Bool}
    {m : Machine ρ} (hm : standard display random indexOverflow true = .ok m) :
    ∃ n, standard display random indexOverflow false = .ok n ∧ ∀ rs,
      m.after rs = { n.after rs with live := true } ∧
      (m.reports rs).map Report.result = (n.reports rs).map Report.result ∧
      (∀ report ∈ n.reports rs, report.printed = none) ∧
      ∀ r text, ((m.after rs).serve r).2.printed = some text ↔
        r = .cycle ∧ (m.after rs).fault = none ∧
          ∃ w d, (m.after rs).fetch = .ok w ∧ decode w (some (m.after rs).pc) = .ok d ∧
            text = (m.after rs).line w d.instruction := by
  have hfalse := new_watched false (Memory.blank memorySize) stackDepth display random indexOverflow
  have htrue := new_watched true (Memory.blank memorySize) stackDepth display random indexOverflow
  unfold standard at hm ⊢
  rw [hm] at hfalse htrue
  have hself : m = m.watched true := Except.ok.inj htrue
  have hlive : m.live = true := congrArg Machine.live hself
  refine ⟨m.watched false, hfalse, fun rs => ⟨?_, ?_, ?_, fun r text => ?_⟩⟩
  · calc m.after rs
        = (m.watched true).after rs := congrArg (after · rs) hself
      _ = (m.after rs).watched true := after_watched m true rs
      _ = { (m.watched false).after rs with live := true } := by rw [after_watched]; rfl
  · exact (results_watched m false rs).symm
  · intro report hreport
    exact printed_of_unwatched rfl hreport
  · rw [printed_serve_eq_some_iff, printed_cycle_eq_some_iff, live_after, hlive]
    simp only [true_and]

/-- A return with nothing to return to is traced before it fails. -/
theorem tracing_of_lone_return :
    (((usual.watched true).after [.load #[0x00, 0xEE]]).serve .cycle).2.printed =
        some (((usual.watched true).after [.load #[0x00, 0xEE]]).line 0x00EE .ret) ∧
      ((usual.watched true).after [.load #[0x00, 0xEE]]).cycle.result =
        .error (.fault (.stack .underflow)) := by
  have hsize : (#[0x00, 0xEE] : Array UInt8).size ≤ programLimit := by decide
  have hstandard : standard usual.display usual.random false true = .ok (usual.watched true) :=
    standard_eq reachable_usual.legal.fits _ _ _
  have hloaded : (usual.watched true).after [.load #[0x00, 0xEE]] =
      (usual.loaded #[0x00, 0xEE]).watched true := by
    rw [after_watched, usual_after_load hsize]
  have h : Sound (usual.loaded #[0x00, 0xEE]) := (reachable_usual_loaded hsize).legal.toSound
  have hupcoming : (usual.loaded #[0x00, 0xEE]).upcoming = 0x00EE := upcoming_loaded hsize rfl rfl
  have hfetch := fetch_eq h
  rw [hupcoming] at hfetch
  obtain ⟨n, -, hobserves⟩ := tracing_only_observes hstandard
  obtain ⟨-, -, -, hprinted⟩ := hobserves [.load #[0x00, 0xEE]]
  rw [hloaded] at hprinted ⊢
  refine ⟨(hprinted .cycle _).2 ⟨rfl, rfl, 0x00EE, .of 0x00EE .ret, hfetch, rfl, rfl⟩, ?_⟩
  have hfault := (result_eq_fault_iff h rfl).2 (nextFault?_eq_underflow_iff.2 ⟨hupcoming, rfl⟩)
  rw [Turn.result_eq_error_iff] at hfault ⊢
  rw [(cycle_watched _ true).2, hfault]

end Chip8.Machine
