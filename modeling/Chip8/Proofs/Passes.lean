import Chip8.Proofs.Upkeep

/-!
# Runs, pass by pass

A run that goes on has taken some readings, one pass or one wait each.  A pass that goes on ends
with a step that went through.
-/

namespace Chip8

theorem bind_eq_ok {ε σ α β : Type} {act : EStateM ε σ α} {next : α → EStateM ε σ β} {s t : σ}
    {b : β} (h : (act >>= next) s = .ok b t) :
    ∃ a u, act s = .ok a u ∧ next a u = .ok b t := by
  rw [bind_apply] at h
  cases hact : act s with
  | ok a u =>
    rw [hact] at h
    exact ⟨a, u, rfl, h⟩
  | error e u =>
    rw [hact] at h
    cases h

namespace Clock

variable {τ σ ε : Type}

theorem setBuzzer_eq_ok {rig : Rig ε σ} {on : Bool} {d e : Driven τ σ}
    (h : setBuzzer rig on d = .ok () e) :
    ∃ s, rig.buzz on d.rig = .ok () s ∧ e = ⟨{ d.clock with buzzing := on }, s⟩ := by
  obtain ⟨u, d', hbuzz, hset⟩ := bind_eq_ok h
  unfold onRig at hbuzz
  cases hrig : rig.buzz on d.rig with
  | ok a s =>
    rw [hrig] at hbuzz
    cases hbuzz
    cases hset
    exact ⟨s, rfl, rfl⟩
  | error e s =>
    rw [hrig] at hbuzz
    cases hbuzz

variable [TimeLine τ] {rig : Rig ε σ} {d e : Driven τ σ} {now : τ}

theorem step_eq_ok {ran : Bool} (h : step rig now d = .ok ran e) :
    ∃ d₁ d₂, catchUp rig now d = .ok () d₁ ∧ runDue rig now d₁ = .ok ran d₂ ∧
      updateBuzzer rig d₂ = .ok () e := by
  obtain ⟨_, d₁, hcatch, h⟩ := bind_eq_ok h
  obtain ⟨ran', d₂, hrun, h⟩ := bind_eq_ok h
  obtain ⟨_, d₃, hbuzzer, h⟩ := bind_eq_ok h
  cases h
  exact ⟨d₁, d₂, hcatch, hrun, hbuzzer⟩

theorem pass_eq_some {phase : Phase τ} (h : pass rig now d = .ok (some phase) e) :
    ∃ d₁ d₂ ran, reportRates rig now d = .ok () d₁ ∧ showFrame rig now d₁ = .ok false d₂ ∧
      step rig now d₂ = .ok ran e ∧ phase = afterPass e.clock := by
  obtain ⟨_, d₁, hreport, h⟩ := bind_eq_ok h
  obtain ⟨quit, d₂, hframe, h⟩ := bind_eq_ok h
  cases quit with
  | true => cases h
  | false =>
    obtain ⟨ran, d₃, hstep, h⟩ := bind_eq_ok h
    cases h
    exact ⟨d₁, d₂, ran, hreport, hframe, hstep, rfl⟩

/-! ## Runs under way -/

theorem afterPass_ne_starting (c : Clock τ) : afterPass c ≠ .starting := by
  unfold afterPass
  split
  · exact nofun
  · exact nofun

theorem observe_ne_starting {phase phase' : Phase τ}
    (h : observe rig phase now d = .ok (some phase') e) : phase' ≠ .starting := by
  cases phase with
  | starting =>
    obtain ⟨_, _, -, h⟩ := bind_eq_ok h
    cases h
    exact nofun
  | passing =>
    obtain ⟨-, -, -, -, -, -, rfl⟩ := pass_eq_some h
    exact afterPass_ne_starting e.clock
  | waiting time =>
    change EStateM.Result.ok (some (if TimeLine.lt now time then Phase.waiting time else .passing))
      d = _ at h
    cases h
    split
    · exact nofun
    · exact nofun

/-- The phase and the state of a run that goes on after it took some readings. -/
def underWay (rig : Rig ε σ) : Phase τ → List τ → Driven τ σ → Option (Phase τ × Driven τ σ)
  | phase, [], d => some (phase, d)
  | phase, now :: rest, d =>
    match observe rig phase now d with
    | .ok (some phase) d => underWay rig phase rest d
    | _ => none

theorem Upheld.underWay {I : Driven τ σ → Prop} (h : Upheld rig I)
    {phase phase' : Phase τ} {readings : List τ} (hd : I d)
    (hrun : underWay rig phase readings d = some (phase', e)) : I e := by
  induction readings generalizing phase d with
  | nil =>
    cases hrun
    exact hd
  | cons now rest ih =>
    have hleft := h.observe phase now d hd
    unfold Clock.underWay at hrun
    split at hrun
    · rename_i hobserve
      rw [hobserve] at hleft
      exact ih hleft hrun
    · cases hrun

end Clock

end Chip8
