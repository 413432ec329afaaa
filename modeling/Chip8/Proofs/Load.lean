import Chip8.Proofs.Invariant
import Chip8.Proofs.Twin

/-!
# Giving a machine a program

A program that is too large changes nothing.  Any other leaves a state that only depends on the
program: machines with different histories are twins from then on.
-/

namespace Chip8

theorem Display.darkened_eq {d e : Display Grid} (hd : d.Fits) (he : e.Fits)
    (hwidth : e.width = d.width) (hheight : e.height = d.height) :
    e.darkened = d.darkened.labelled e.screen.scale e.screen.title := by
  have hw : e.screen.width = d.screen.width := by rw [hd.width, he.width, hwidth]
  have hh : e.screen.height = d.screen.height := by rw [hd.height, he.height, hheight]
  obtain ⟨screen, width, height, _, _, lit, changed⟩ := e
  obtain ⟨screen', width', height', _, _, lit', changed'⟩ := d
  simp only at hwidth hheight hw hh
  subst hwidth hheight
  simp only [darkened, labelled, Grid.labelled, hw, hh]

theorem Display.eq_zero_of_mem_darkened (d : Display Grid) : ∀ b ∈ d.darkened.snapshot, b = 0 := by
  intro b hb
  simp only [snapshot, darkened, List.mem_map, Vector.mem_toList_iff, Vector.mem_replicate] at hb
  obtain ⟨lit, ⟨-, rfl⟩, rfl⟩ := hb
  rfl

namespace Machine

/-- A machine that was just given a program and has done nothing since: every part of it that a
program or a host can see. -/
structure JustLoaded (program : Array UInt8) (m : Machine Grid) : Prop where
  size : m.memory.size = 0x1000
  glyph : ∀ k, k < 80 → m.memory.bytes[0x050 + k]? = font[k]?
  code : ∀ k, k < program.size → m.memory.bytes[0x200 + k]? = program[k]?
  rest : ∀ i, i < 0x1000 → i < 0x050 ∨ 0x0A0 ≤ i → i < 0x200 ∨ 0x200 + program.size ≤ i →
    m.memory.bytes[i]? = some 0
  registers : ∀ x, m.get x = 0
  index : m.index = 0
  pc : m.pc = 0x200
  address : m.address = 0x200
  word : m.word = 0
  items : m.stack.items = []
  delay : m.timers.delay = 0
  sound : m.timers.sound = 0
  dark : ∀ b ∈ m.display.snapshot, b = 0
  shown : m.display.screen.pixels.toList = m.display.snapshot
  changed : m.display.changed = true
  down : ∀ k, m.keypad.down.get k = false
  latched : m.keypad.latched = none
  keys : ∀ k, m.keys.get k = false
  awaiting : m.awaiting = false
  fault : m.fault = none

variable {m n : Machine Grid} {program : Array UInt8}

def host (m : Machine Grid) : Host :=
  ⟨m.random, m.display.screen.scale, m.display.screen.title⟩

theorem justLoaded_loaded (m : Machine Grid) (h : program.size ≤ programLimit) :
    JustLoaded program (m.loaded program) where
  size := size_memoryWith program
  glyph := fun _ hk => getElem?_memoryWith_glyph program hk
  code := fun _ hk => getElem?_memoryWith_program h hk
  rest := fun _ hi hglyph hprogram => getElem?_memoryWith_rest program hi hglyph hprogram
  registers := Nibble.get_replicate 0
  index := rfl
  pc := rfl
  address := rfl
  word := rfl
  items := rfl
  delay := rfl
  sound := rfl
  dark := Display.eq_zero_of_mem_darkened m.display
  shown := Display.mirrors_darkened m.display
  changed := rfl
  down := Nibble.get_replicate false
  latched := rfl
  keys := Nibble.get_replicate false
  awaiting := rfl
  fault := rfl

theorem random_loaded (m : Machine Grid) (program : Array UInt8) :
    (m.loaded program).random = m.random := by
  -- Compared as they stand, the two records would have their memories evaluated.
  unfold loaded fresh firstState
  rfl

/-- Of all that a machine was, only its host is left after it was given a program. -/
theorem loaded_eq_on (hm : m.display.Fits) (hn : n.display.Fits)
    (hwidth : n.display.width = m.display.width) (hheight : n.display.height = m.display.height)
    (hlimit : n.stack.limit = m.stack.limit) (hoverflow : n.indexOverflow = m.indexOverflow)
    (hlive : n.live = m.live) (program : Array UInt8) :
    n.loaded program = (m.loaded program).on n.host := by
  have hdark := Display.darkened_eq hm hn hwidth hheight
  unfold loaded fresh firstState
  rw [hdark, hlimit, hoverflow, hlive]
  rfl

/-- A program that is too large is refused and leaves the machine as it was, whatever it was.  Any
other program leaves the same state on any two machines that were built alike, whatever has become
of them: the state of a machine that was just given that program.  From then on the two are told
apart by nothing, as long as their random sources have the same values to come. -/
theorem load_erases_history :
    (∀ {ρ : Type} [Screen ρ] (m : Machine ρ) (program : Array UInt8), 0xE00 < program.size →
      m.load program = .error (.programTooLarge program.size 0xE00) m) ∧
    ∀ (m n : Machine Grid) (program : Array UInt8), program.size ≤ 0xE00 →
      m.memory.size = 0x1000 → n.memory.size = 0x1000 → m.display.Fits → n.display.Fits →
      n.display.width = m.display.width → n.display.height = m.display.height →
      n.stack.limit = m.stack.limit → n.indexOverflow = m.indexOverflow → n.live = m.live →
      ∃ m' n', m.load program = .ok () m' ∧ n.load program = .ok () n' ∧
        JustLoaded program m' ∧ JustLoaded program n' ∧ n' = m'.on n.host ∧
        (m.random.Alike n.random → ∀ rs : List Request,
          (m'.after rs).Twin (n'.after rs) ∧ m'.reports rs = n'.reports rs) := by
  constructor
  · intro ρ _ m program hsize
    exact load_of_tooLarge m hsize
  · intro m n program hsize hm hn hmfits hnfits hwidth hheight hlimit hoverflow hlive
    have hroom : program.size ≤ programLimit := by
      unfold programLimit memorySize origin
      omega
    have heq := loaded_eq_on hmfits hnfits hwidth hheight hlimit hoverflow hlive program
    have hmload := load_eq hm hmfits hroom
    have hnload := load_eq hn hnfits hroom
    refine ⟨m.loaded program, n.loaded program, hmload, hnload, justLoaded_loaded m hroom,
      justLoaded_loaded n hroom, heq, ?_⟩
    intro halike rs
    have halike' : (m.loaded program).random.Alike n.host.random := by
      rw [random_loaded]
      exact halike
    have htwin : (m.loaded program).Twin (n.loaded program) := ⟨n.host, halike', heq⟩
    exact htwin.run rs

/-- A machine that a fault stopped, and one that was not used yet. -/
theorem load_erases_fault :
    (usual.faulted (.stack .underflow)).fault ≠ none ∧
      (∃ m' n', usual.load #[0x00, 0xE0] = .ok () m' ∧
        (usual.faulted (.stack .underflow)).load #[0x00, 0xE0] = .ok () n' ∧
        JustLoaded #[0x00, 0xE0] n' ∧ ∀ rs : List Request, m'.reports rs = n'.reports rs) ∧
      (usual.faulted (.stack .underflow)).load (Array.replicate 0xE01 0) =
        .error (.programTooLarge 0xE01 0xE00) (usual.faulted (.stack .underflow)) := by
  have h : Sound usual := reachable_usual.legal.toSound
  have hsize : (#[0x00, 0xE0] : Array UInt8).size ≤ 0xE00 := by decide
  obtain ⟨m', n', hm, hn, -, hstart, -, hreports⟩ :=
    load_erases_history.2 usual (usual.faulted (.stack .underflow)) #[0x00, 0xE0] hsize
      h.memory h.memory h.fits h.fits rfl rfl rfl rfl rfl
  have htooLarge := load_erases_history.1 (usual.faulted (.stack .underflow))
    (Array.replicate 0xE01 0) (by rw [Array.size_replicate]; omega)
  rw [Array.size_replicate] at htooLarge
  refine ⟨nofun, ⟨m', n', hm, hn, hstart, ?_⟩, htooLarge⟩
  intro rs
  exact (hreports (fun _ => rfl) rs).2

end Machine

end Chip8
