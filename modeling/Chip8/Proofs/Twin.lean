import Chip8.Proofs.Mirror
import Chip8.Proofs.Request

/-!
# Twins

Two machines are twins if they differ in the labels of their screens and in their random sources
alone, and the sources have the same values to come.  No request tells twins apart: each of them is
answered in the same way, and leaves twins.
-/

namespace Chip8

/-- Whether two random sources have the same values to come. -/
def RandomSource.Alike (r s : RandomSource) : Prop :=
  ∀ k, r.value (r.drawn + k) = s.value (s.drawn + k)

theorem RandomSource.Alike.value_eq {r s : RandomSource} (h : r.Alike s) :
    r.draw.1 = s.draw.1 :=
  h 0

theorem RandomSource.Alike.next {r s : RandomSource} (h : r.Alike s) :
    r.draw.2.Alike s.draw.2 := by
  intro k
  have hk := h (1 + k)
  rw [← Nat.add_assoc, ← Nat.add_assoc] at hk
  exact hk

def mapState {ε σ τ α : Type} (f : σ → τ) : EStateM.Result ε σ α → EStateM.Result ε τ α
  | .ok a s => .ok a (f s)
  | .error e s => .error e (f s)

/-! ## Labels -/

section Labels

variable (scale : HostValue) (title : String)

def Grid.labelled (g : Grid) : Grid := { g with scale, title }

def Display.labelled (d : Display Grid) : Display Grid :=
  { d with screen := d.screen.labelled scale title }

theorem Grid.setPixel_labelled (g : Grid) (x y colour : Int) :
    Screen.setPixel (g.labelled scale title) x y colour =
      mapState (Grid.labelled scale title) (Screen.setPixel g x y colour) := by
  obtain ⟨scale', width, height, title', pixels⟩ := g
  change setPixel ⟨scale, width, height, title, pixels⟩ x y colour =
    mapState _ (setPixel _ x y colour)
  simp only [setPixel]
  split
  · rfl
  split
  · rfl
  split
  · rfl
  · rfl
theorem Grid.paint_labelled (colour : Int) (g : Grid) (places : List (Int × Int)) :
    Screen.paint colour (g.labelled scale title) places =
      mapState (Grid.labelled scale title) (Screen.paint colour g places) := by
  induction places generalizing g with
  | nil => rfl
  | cons place rest ih =>
    obtain ⟨x, y⟩ := place
    rw [Screen.paint, Screen.paint, setPixel_labelled]
    cases Screen.setPixel g x y colour with
    | ok u g' => exact ih g'
    | error e g' => rfl

namespace Display

theorem flip_labelled (d : Display Grid) (x y : Int) :
    (d.labelled scale title).flip x y = mapState (labelled scale title) (d.flip x y) := by
  have hlit : (d.labelled scale title).isLit x y = d.isLit x y := rfl
  have hcolumn : (d.labelled scale title).column x = d.column x := rfl
  have hrow : (d.labelled scale title).row y = d.row y := rfl
  have hscreen : (d.labelled scale title).screen = d.screen.labelled scale title := rfl
  unfold flip onScreen
  simp only [hlit, hcolumn, hrow, hscreen, Grid.setPixel_labelled]
  cases Screen.setPixel d.screen (d.column x) (d.row y) (if d.isLit x y then 0 else 1) <;> rfl

theorem flipEach_labelled (d : Display Grid) (places : List (Int × Int)) :
    (d.labelled scale title).flipEach places =
      mapState (labelled scale title) (d.flipEach places) := by
  induction places generalizing d with
  | nil => rfl
  | cons place rest ih =>
    obtain ⟨x, y⟩ := place
    rw [flipEach, flipEach, flip_labelled]
    cases d.flip x y with
    | error e d' => rfl
    | ok was d' =>
      simp only [mapState, ih]
      cases d'.flipEach rest <;> rfl

theorem clear_labelled (d : Display Grid) :
    (d.labelled scale title).clear = mapState (labelled scale title) d.clear := by
  have hcoordinates : (d.labelled scale title).coordinates = d.coordinates := rfl
  have hscreen : (d.labelled scale title).screen = d.screen.labelled scale title := rfl
  unfold clear onScreen
  simp only [hcoordinates, hscreen, Grid.paint_labelled]
  cases Screen.paint 0 d.screen d.coordinates <;> rfl
end Display

end Labels

namespace Machine

/-- What a machine has from its host and does not share with its twins. -/
structure Host where
  random : RandomSource
  scale : HostValue
  title : String

def on (m : Machine Grid) (host : Host) : Machine Grid :=
  { m with random := host.random, display := m.display.labelled host.scale host.title }

/-- Whether two machines differ in their hosts alone, whose sources have the same values to come. -/
def Twin (m n : Machine Grid) : Prop :=
  ∃ host : Host, m.random.Alike host.random ∧ n = m.on host

inductive Result.Twin : Result Grid Unit → Result Grid Unit → Prop
  | ok {m n : Machine Grid} (h : m.Twin n) : Twin (.ok () m) (.ok () n)
  | error (e : Error) {m n : Machine Grid} (h : m.Twin n) : Twin (.error e m) (.error e n)

structure TwinTurns (t u : Turn Grid) : Prop where
  machine : t.machine.Twin u.machine
  printed : t.printed = u.printed
  outcome : t.outcome = u.outcome

variable {m n : Machine Grid}

theorem Twin.same {α : Type} (h : m.Twin n) (f : Machine Grid → α)
    (hf : ∀ host, f (m.on host) = f m) : f n = f m := by
  obtain ⟨host, -, rfl⟩ := h
  exact hf host

/-! ## Steps of an instruction -/

theorem Twin.set (h : m.Twin n) (x : Nibble) (value : UInt8) :
    (m.set x value).Twin (n.set x value) := by
  obtain ⟨host, halike, rfl⟩ := h
  exact ⟨host, halike, rfl⟩

theorem Twin.setEach (h : m.Twin n) (values : List (Nibble × UInt8)) :
    (m.setEach values).Twin (n.setEach values) := by
  induction values generalizing m n with
  | nil => exact h
  | cons value rest ih => exact ih (h.set value.1 value.2)

theorem Twin.skipIf (h : m.Twin n) (condition : Bool) :
    (m.skipIf condition).Twin (n.skipIf condition) := by
  obtain ⟨host, halike, rfl⟩ := h
  cases condition <;> exact ⟨host, halike, rfl⟩

theorem Twin.addIndex (h : m.Twin n) (x : Nibble) : (m.addIndex x).Twin (n.addIndex x) := by
  obtain ⟨host, halike, rfl⟩ := h
  have hoverflow : (m.on host).indexOverflow = m.indexOverflow := rfl
  simp only [Machine.addIndex, hoverflow]
  cases m.indexOverflow <;> exact ⟨host, halike, rfl⟩

theorem Twin.awaitKey (h : m.Twin n) (x : Nibble) : (m.awaitKey x).Twin (n.awaitKey x) := by
  obtain ⟨host, halike, rfl⟩ := h
  have hawaiting : (m.on host).awaiting = m.awaiting := rfl
  have hkeypad : (m.on host).keypad = m.keypad := rfl
  simp only [Machine.awaitKey, hawaiting, hkeypad]
  cases m.awaiting with
  | false => exact ⟨host, halike, rfl⟩
  | true => cases m.keypad.latched <;> exact ⟨host, halike, rfl⟩

theorem Twin.store (h : m.Twin n) (bytes : List UInt8) :
    Result.Twin (m.store bytes) (n.store bytes) := by
  obtain ⟨host, halike, rfl⟩ := h
  have hmemory : (m.on host).memory = m.memory := rfl
  have haddresses : (m.on host).addresses = m.addresses := rfl
  simp only [Machine.store, hmemory, haddresses]
  cases (m.memory.writeEach ((m.addresses bytes.length).zip bytes)).2 with
  | none => exact .ok ⟨host, halike, rfl⟩
  | some e => exact .error _ ⟨host, halike, rfl⟩

theorem Twin.loadTo (h : m.Twin n) (x : Nibble) : Result.Twin (m.loadTo x) (n.loadTo x) := by
  have hmemory := h.same Machine.memory fun _ => rfl
  have haddresses := h.same addresses fun _ => rfl
  simp only [Machine.loadTo, hmemory, haddresses]
  cases (m.memory.readEach (m.addresses (x + 1))).2 with
  | none => exact .ok (h.setEach _)
  | some e => exact .error _ (h.setEach _)

theorem Twin.clearDisplay (h : m.Twin n) : Result.Twin m.clearDisplay n.clearDisplay := by
  obtain ⟨host, halike, rfl⟩ := h
  have hdisplay : (m.on host).display = m.display.labelled host.scale host.title := rfl
  simp only [Machine.clearDisplay, hdisplay, Display.clear_labelled]
  cases m.display.clear with
  | ok u display => exact .ok ⟨host, halike, rfl⟩
  | error e display => exact .error _ ⟨host, halike, rfl⟩

theorem Twin.draw (h : m.Twin n) (x y rows : Nibble) :
    Result.Twin (m.draw x y rows) (n.draw x y rows) := by
  obtain ⟨host, halike, rfl⟩ := h
  have hdisplay : (m.on host).display = m.display.labelled host.scale host.title := rfl
  have hmemory : (m.on host).memory = m.memory := rfl
  have haddresses : (m.on host).addresses = m.addresses := rfl
  have hget : (m.on host).get = m.get := rfl
  simp only [Machine.draw, hdisplay, hmemory, haddresses, hget, Display.flipEach_labelled]
  cases m.display.flipEach (spritePlaces (m.get x).toNat (m.get y).toNat
      (m.memory.readEach (m.addresses rows)).1) with
  | error e display => exact .error _ ⟨host, halike, rfl⟩
  | ok collided display =>
    simp only [mapState]
    cases (m.memory.readEach (m.addresses rows)).2 with
    | some e => exact .error _ ⟨host, halike, rfl⟩
    | none => exact .ok ⟨host, halike, rfl⟩

/-! ## Instructions -/

theorem Twin.execute (h : m.Twin n) (i : Instruction) :
    Result.Twin (m.execute i) (n.execute i) := by
  have htwin := h
  obtain ⟨host, halike, rfl⟩ := h
  have hstack : (m.on host).stack = m.stack := rfl
  have hpc : (m.on host).pc = m.pc := rfl
  cases i with
  | clear => exact htwin.clearDisplay
  | ret =>
    simp only [Machine.execute, hstack]
    cases m.stack.pop with
    | error e => exact .error _ htwin
    | ok popped => exact .ok ⟨host, halike, rfl⟩
  | call a =>
    simp only [Machine.execute, hstack, hpc]
    cases m.stack.push m.pc with
    | error e => exact .error _ htwin
    | ok stack => exact .ok ⟨host, halike, rfl⟩
  | skipEqByte x b => exact .ok (htwin.skipIf (m.get x == b))
  | skipNeByte x b => exact .ok (htwin.skipIf (m.get x != b))
  | skipEq x y => exact .ok (htwin.skipIf (m.get x == m.get y))
  | skipNe x y => exact .ok (htwin.skipIf (m.get x != m.get y))
  | skipPressed x => exact .ok (htwin.skipIf (m.keys.get (Nibble.ofNat (m.get x).toNat)))
  | skipReleased x => exact .ok (htwin.skipIf !m.keys.get (Nibble.ofNat (m.get x).toNat))
  | draw x y rows => exact htwin.draw x y rows
  | awaitKey x => exact .ok (htwin.awaitKey x)
  | addIndex x => exact .ok (htwin.addIndex x)
  | storeDecimal x => exact htwin.store (decimalDigits (m.get x))
  | storeRegisters x => exact htwin.store ((registersTo x).map m.get)
  | loadRegisters x => exact htwin.loadTo x
  | random x mask =>
    -- The one instruction that reads the source: the values are the same, and so are those to come.
    have hvalue : host.random.draw.1 = m.random.draw.1 := halike.value_eq.symm
    refine .ok ⟨{ host with random := host.random.draw.2 }, halike.next, ?_⟩
    change Machine.set _ x (lowByte host.random.draw.1 &&& mask) = _
    rw [hvalue]
    rfl
  | _ => exact .ok ⟨host, halike, rfl⟩

/-! ## Cycles -/

theorem Twin.perform (h : m.Twin n) : TwinTurns m.perform n.perform := by
  have hword := h.same Machine.word fun _ => rfl
  have haddress := h.same Machine.address fun _ => rfl
  have hlive := h.same Machine.live fun _ => rfl
  have hdescribe := h.same describe fun _ => rfl
  simp only [Machine.perform, hword, haddress, hlive, hdescribe]
  cases decode m.word (some m.address) with
  | error e => exact ⟨h, rfl, rfl⟩
  | ok d =>
    have hexecute := h.execute d.instruction
    simp only
    generalize m.execute d.instruction = left at hexecute
    generalize n.execute d.instruction = right at hexecute
    cases hexecute with
    | ok hnext => exact ⟨hnext, rfl, rfl⟩
    | error e hnext => exact ⟨hnext, rfl, rfl⟩

theorem Twin.takeUp (h : m.Twin n) (word : Word) : (m.takeUp word).Twin (n.takeUp word) := by
  obtain ⟨host, halike, rfl⟩ := h
  exact ⟨host, halike, rfl⟩

theorem Twin.halt (h : m.Twin n) (f : Fault) : (m.halt f).Twin (n.halt f) := by
  obtain ⟨host, halike, rfl⟩ := h
  exact ⟨host, halike, rfl⟩

theorem Twin.cycle (h : m.Twin n) : TwinTurns m.cycle n.cycle := by
  have hfault := h.same Machine.fault fun _ => rfl
  have hfetch := h.same fetch fun _ => rfl
  simp only [Machine.cycle, hfault, hfetch]
  cases m.fault with
  | some f => exact ⟨h, rfl, rfl⟩
  | none =>
    cases m.fetch with
    | error e =>
      obtain ⟨host, halike, rfl⟩ := h
      exact ⟨⟨host, halike, rfl⟩, rfl, rfl⟩
    | ok word =>
      obtain ⟨hmachine, hprinted, houtcome⟩ := (h.takeUp word).perform
      simp only [← houtcome]
      split
      · exact ⟨hmachine.halt _, hprinted, rfl⟩
      · exact ⟨hmachine, hprinted, houtcome⟩

/-! ## Requests -/

theorem Twin.reset (h : m.Twin n) : Result.Twin m.reset n.reset := by
  obtain ⟨host, halike, rfl⟩ := h
  have hmemory : (m.on host).memory = m.memory := rfl
  have hdisplay : (m.on host).display = m.display.labelled host.scale host.title := rfl
  simp only [Machine.reset, hmemory, hdisplay, Display.clear_labelled]
  cases m.memory.clear.writeBlock glyphs font with
  | error e => exact .error _ ⟨host, halike, rfl⟩
  | ok memory =>
    cases m.display.clear with
    | error e display => exact .error _ ⟨host, halike, rfl⟩
    | ok u display => exact .ok ⟨host, halike, rfl⟩

theorem Twin.load (h : m.Twin n) (program : Array UInt8) :
    Result.Twin (m.load program) (n.load program) := by
  have hreset := h.reset
  unfold Machine.load
  split
  · exact .error _ h
  · generalize m.reset = left at hreset
    generalize n.reset = right at hreset
    cases hreset with
    | error e hnext => exact .error e hnext
    | ok hnext =>
      rename_i m' n'
      have hmemory := hnext.same Machine.memory fun _ => rfl
      simp only [hmemory]
      cases m'.memory.writeBlock origin program with
      | error e => exact .error _ hnext
      | ok memory =>
        obtain ⟨host, halike, rfl⟩ := hnext
        exact .ok ⟨host, halike, rfl⟩

theorem Result.Twin.settle {left right : Result Grid Unit} (h : Result.Twin left right) :
    (Result.settle left).1.Twin (Result.settle right).1 ∧
      (Result.settle left).2 = (Result.settle right).2 := by
  cases h with
  | ok hnext => exact ⟨hnext, rfl⟩
  | error e hnext => exact ⟨hnext, rfl⟩

theorem TwinTurns.settle {t u : Turn Grid} (h : TwinTurns t u) :
    (settleTurn t).1.Twin (settleTurn u).1 ∧ (settleTurn t).2 = (settleTurn u).2 := by
  obtain ⟨hmachine, hprinted, houtcome⟩ := h
  simp only [settleTurn, ← houtcome, ← hprinted]
  cases t.outcome with
  | ok d => exact ⟨hmachine, rfl⟩
  | error e => exact ⟨hmachine, rfl⟩

theorem Twin.serve (h : m.Twin n) (r : Request) :
    (m.serve r).1.Twin (n.serve r).1 ∧ (m.serve r).2 = (n.serve r).2 := by
  cases r with
  | load program => exact (h.load program).settle
  | reset => exact h.reset.settle
  | cycle => exact h.cycle.settle
  | tick =>
    obtain ⟨host, halike, rfl⟩ := h
    exact ⟨⟨host, halike, rfl⟩, rfl⟩
  | setKey key isDown =>
    obtain ⟨host, halike, rfl⟩ := h
    have hkeypad : (m.on host).keypad = m.keypad := rfl
    simp only [Machine.serve, setKey, hkeypad]
    cases m.keypad.setKey key isDown with
    | error e => exact ⟨⟨host, halike, rfl⟩, rfl⟩
    | ok keypad => exact ⟨⟨host, halike, rfl⟩, rfl⟩

/-- Nothing that twins are asked tells them apart. -/
theorem Twin.run (h : m.Twin n) (rs : List Request) :
    (m.after rs).Twin (n.after rs) ∧ m.reports rs = n.reports rs := by
  induction rs generalizing m n with
  | nil => exact ⟨h, rfl⟩
  | cons r rest ih =>
    obtain ⟨hnext, hreport⟩ := h.serve r
    obtain ⟨hafter, hreports⟩ := ih hnext
    refine ⟨hafter, ?_⟩
    rw [reports, reports, hreport, hreports]

end Machine

end Chip8
