import Chip8.Proofs.Effect

/-!
# Calls return where they were made

Whatever a machine is asked between two starts, its stack grows and shrinks at the top alone, one
item at a time, and only a return makes it shrink.  So what a call found on the stack, and the
address that it put on top of it, stay there until the return that takes that address again.
-/

namespace Chip8.Machine

variable {m n : Machine Grid} {r : Request} {a : Address}

inductive StackStep (n : Machine Grid) (r : Request) : Prop
  | keep (hstack : (n.serve r).1.stack = n.stack)
  | push (item : Int) (hitems : (n.serve r).1.stack.items = item :: n.stack.items)
  | pop (hr : r = .cycle) (hret : n.cycle.result = .ok .ret)
      (hitems : n.stack.items = (n.serve r).1.pc :: (n.serve r).1.stack.items)

theorem stackStep_of_ok (h : Sound n) {i : Instruction} (hi : n.cycle.result = .ok i) :
    StackStep n .cycle := by
  obtain ⟨-, -, he, hmachine⟩ := cycle_of_result h hi
  cases i with
  | ret =>
    obtain ⟨item, rest, hitems⟩ := exists_items_of_ret he
    have hitems' : n.stack.items = item :: rest := hitems
    apply StackStep.pop rfl hi
    rw [serve_cycle, hmachine, hitems']
    simp only [executed, stackAfter, pcAfter, hitems, List.headD_cons, List.tail_cons]
  | call a =>
    apply StackStep.push (wrapAddress (n.pc + 2))
    rw [serve_cycle, hmachine]
    rfl
  | _ =>
    apply StackStep.keep
    rw [serve_cycle, hmachine]
    rfl

theorem stackStep_cycle (h : Sound n) : StackStep n .cycle := by
  cases hf : n.fault with
  | some f =>
    apply StackStep.keep
    rw [serve_cycle, cycle_of_halted hf]
  | none =>
    cases hnext : n.nextFault? with
    | some f =>
      apply StackStep.keep
      rw [serve_cycle, (cycle_of_nextFault h hf hnext).1]
      rfl
    | none =>
      obtain ⟨i, hw, he, -⟩ := cycle_executes h hf hnext
      exact stackStep_of_ok h (result_eq h hf hw he)

theorem stackStep_serve (h : Sound n) (hr : ¬r.Restarts) : StackStep n r := by
  by_cases hc : r = .cycle
  · rw [hc]
    exact stackStep_cycle h
  · obtain ⟨keypad, timers, hserve, -, -⟩ := serve_aside n hr hc
    apply StackStep.keep
    rw [hserve]

/-! ## Inside a call -/

/-- Whether a machine is inside the call that another one was about to make: the address after the
call still lies on what was on the stack, under the calls that were made since. -/
def Inside (m n : Machine Grid) : Prop :=
  ∃ inner, n.stack.items = inner ++ wrapAddress (m.pc + 2) :: m.stack.items

theorem Inside.deeper (hn : Inside m n) : m.stack.depth < n.stack.depth := by
  obtain ⟨inner, hitems⟩ := hn
  unfold CallStack.depth
  rw [hitems, List.length_append, List.length_cons]
  omega

theorem Inside.serve (hn : Inside m n) (hstep : StackStep n r) :
    Inside m (n.serve r).1 ∨
      r = .cycle ∧ n.cycle.result = .ok .ret ∧
        (n.serve r).1.stack.items = m.stack.items ∧
        (n.serve r).1.pc = wrapAddress (m.pc + 2) := by
  obtain ⟨inner, hinner⟩ := hn
  cases hstep with
  | keep hstack =>
    left
    exact ⟨inner, by rw [hstack, hinner]⟩
  | push item hitems =>
    left
    exact ⟨item :: inner, by rw [hitems, hinner, List.cons_append]⟩
  | pop hr hret hitems =>
    rw [hinner] at hitems
    cases inner with
    | nil =>
      obtain ⟨hpc, hrest⟩ := List.cons.inj hitems
      exact Or.inr ⟨hr, hret, hrest.symm, hpc.symm⟩
    | cons item inner =>
      obtain ⟨-, hrest⟩ := List.cons.inj hitems
      exact Or.inl ⟨inner, hrest.symm⟩

/-- As long as the stack stays deeper than it was, the machine stays inside the call. -/
theorem Inside.after (h : Reachable n) (hn : Inside m n) {rs : List Request}
    (hrs : ∀ r ∈ rs, ¬r.Restarts)
    (hdeep : ∀ before, before <+: rs → m.stack.depth < (n.after before).stack.depth) :
    Inside m (n.after rs) := by
  induction rs generalizing n with
  | nil => exact hn
  | cons r rest ih =>
    have hr : ¬r.Restarts := hrs r List.mem_cons_self
    rcases hn.serve (stackStep_serve h.legal.toSound hr) with hnext | ⟨-, -, hitems, -⟩
    · apply ih (h.served r) hnext
      · exact fun r hr => hrs r (List.mem_cons_of_mem _ hr)
      · intro before hbefore
        exact hdeep (r :: before) (List.cons_prefix_cons.2 ⟨rfl, hbefore⟩)
    · have hone : m.stack.depth < (n.serve r).1.stack.depth :=
        hdeep [r] (List.cons_prefix_cons.2 ⟨rfl, List.nil_prefix⟩)
      unfold CallStack.depth at hone
      rw [hitems] at hone
      omega

theorem Inside.take_toList (hn : Inside m n) :
    n.stack.toList.take (m.stack.depth + 1) = m.stack.toList ++ [wrapAddress (m.pc + 2)] := by
  obtain ⟨inner, hitems⟩ := hn
  have hlength : (m.stack.toList ++ [wrapAddress (m.pc + 2)]).length = m.stack.depth + 1 := by
    simp only [CallStack.toList, CallStack.depth, List.length_append, List.length_reverse,
      List.length_singleton]
  have hlist : n.stack.toList = (m.stack.toList ++ [wrapAddress (m.pc + 2)]) ++ inner.reverse := by
    simp only [CallStack.toList, hitems, List.reverse_append, List.reverse_cons]
  rw [hlist, ← hlength]
  exact List.take_left

/-! ## From a call to its return -/

theorem cycle_call (h : Sound m) (hf : m.fault = none)
    (hw : Instruction.ofWord? m.upcoming = some (.call a)) (hroom : m.stack.depth < 16) :
    m.cycle.result = .ok (.call a) ∧ Inside m m.cycle.machine := by
  have hlimit : m.stack.limit = 16 := h.limit
  have hfull : ¬m.stack.limit ≤ m.stack.depth := by omega
  have he : (m.takeUp m.upcoming).stackError? (.call a) = none := if_neg hfull
  rw [cycle_eq h hf hw he]
  exact ⟨rfl, [], rfl⟩

/-- A call on a stack that has room for it goes through.  Until the machine is started anew, and as
long as the stack stays deeper than it was before the call, the bottom of the stack is what it was
then, followed by the address after the call; and the request that makes it as deep as before again
is a cycle that returns to that address and leaves the stack as it was. -/
theorem call_returns_to_caller (hm : Reachable m) (hf : m.fault = none)
    (hw : Instruction.ofWord? m.upcoming = some (.call a)) (hroom : m.stack.depth < 16) :
    m.cycle.result = .ok (.call a) ∧
    ∀ rs : List Request, (∀ r ∈ rs, ¬r.Restarts) →
      (∀ before, before <+: rs → m.stack.depth < (m.cycle.machine.after before).stack.depth) →
      (m.cycle.machine.after rs).stack.toList.take (m.stack.depth + 1) =
        m.stack.toList ++ [wrapAddress (m.pc + 2)] ∧
      ∀ r n, ¬r.Restarts → ((m.cycle.machine.after rs).serve r).1 = n →
        n.stack.depth ≤ m.stack.depth →
        r = .cycle ∧ (m.cycle.machine.after rs).cycle.result = .ok .ret ∧
          n.stack = m.stack ∧ n.pc = wrapAddress (m.pc + 2) := by
  have h := hm.legal.toSound
  obtain ⟨hresult, hinside⟩ := cycle_call h hf hw hroom
  refine ⟨hresult, ?_⟩
  intro rs hrs hdeep
  have hcalled : Reachable m.cycle.machine := by
    rw [← serve_cycle]
    exact hm.served .cycle
  have hlast := hinside.after hcalled hrs hdeep
  refine ⟨hlast.take_toList, ?_⟩
  rintro r n hr rfl hback
  have hreach := hcalled.after rs
  rcases hlast.serve (stackStep_serve hreach.legal.toSound hr) with hnext | hreturn
  · have := hnext.deeper
    omega
  · obtain ⟨hcycle, hret, hitems, hpc⟩ := hreturn
    have hlimit : ((m.cycle.machine.after rs).serve r).1.stack.limit = m.stack.limit := by
      rw [h.limit, (hreach.served r).legal.limit]
    have hstack : ((m.cycle.machine.after rs).serve r).1.stack = m.stack := by
      generalize ((m.cycle.machine.after rs).serve r).1.stack = s at hlimit hitems
      obtain ⟨limit, items⟩ := s
      simp only at hlimit hitems
      rw [hlimit, hitems]
    exact ⟨hcycle, hret, hstack, hpc⟩

/-- A call of the subroutine two words on, which ticks the timers once and returns. -/
theorem call_of_usual_returns :
    Reachable (usual.loaded #[0x22, 0x04, 0x00, 0xE0, 0x00, 0xEE]) ∧
      (usual.loaded #[0x22, 0x04, 0x00, 0xE0, 0x00, 0xEE]).fault = none ∧
      Instruction.ofWord? (usual.loaded #[0x22, 0x04, 0x00, 0xE0, 0x00, 0xEE]).upcoming =
        some (.call 0x204) ∧
      (usual.loaded #[0x22, 0x04, 0x00, 0xE0, 0x00, 0xEE]).stack.depth < 16 ∧
      ((usual.loaded #[0x22, 0x04, 0x00, 0xE0, 0x00, 0xEE]).after
        [.cycle, .tick]).stack.toList.take 1 = [0x202] ∧
      ((usual.loaded #[0x22, 0x04, 0x00, 0xE0, 0x00, 0xEE]).after
        [.cycle, .tick, .cycle]).stack.toList = [] ∧
      ((usual.loaded #[0x22, 0x04, 0x00, 0xE0, 0x00, 0xEE]).after
        [.cycle, .tick, .cycle]).pc = 0x202 := by
  obtain ⟨m, heq⟩ : ∃ m, m = usual.loaded #[0x22, 0x04, 0x00, 0xE0, 0x00, 0xEE] := ⟨_, rfl⟩
  rw [← heq]
  have hsize : (#[0x22, 0x04, 0x00, 0xE0, 0x00, 0xEE] : Array UInt8).size ≤ programLimit := by
    decide
  have hm : Running #[0x22, 0x04, 0x00, 0xE0, 0x00, 0xEE] 0 m := by
    rw [heq]
    exact running_loaded hsize
  have hstack : m.stack.items = [] := by
    rw [heq]
    rfl
  have hdepth : m.stack.depth = 0 := by rw [CallStack.depth, hstack, List.length_nil]
  have hroom : m.stack.depth < 16 := by omega
  have hcall : Instruction.ofWord? m.upcoming = some (.call 0x204) := by
    rw [hm.upcoming_eq hsize rfl rfl]
    rfl
  have hnext : wrapAddress (m.pc + 2) = 0x202 := by
    rw [hm.pc]
    rfl
  obtain ⟨hresult, hreturns⟩ := call_returns_to_caller hm.reachable hm.fault hcall hroom
  obtain ⟨-, -, he, -⟩ := cycle_of_result hm.sound hresult
  obtain ⟨hexecuted, hn⟩ := hm.cycle hcall he rfl (show (0x204 : Int) = (origin + 4 : Nat) by rfl)
  obtain ⟨c, hc⟩ : ∃ c, c = m.cycle.machine := ⟨_, rfl⟩
  rw [← hc] at hreturns hn hexecuted
  -- The machine inside the call, after the tick.
  obtain ⟨n, htick⟩ : ∃ n, n = (c.serve .tick).1 := ⟨_, rfl⟩
  have hn' : Running #[0x22, 0x04, 0x00, 0xE0, 0x00, 0xEE] 4 n := by
    rw [htick]
    exact hn.tick
  have hitems : c.stack.items = [wrapAddress (m.pc + 2)] := by
    have hpush : c.stack.items = wrapAddress (m.pc + 2) :: m.stack.items := by
      rw [hexecuted]
      rfl
    rw [hpush, hstack]
  have hsame : n.stack = c.stack := by
    rw [htick]
    rfl
  have hret : Instruction.ofWord? n.upcoming = some .ret := by
    rw [hn'.upcoming_eq hsize rfl rfl]
    rfl
  have hcycle := cycle_eq hn'.sound hn'.fault hret (if_neg (by simp [takeUp, hsame, hitems]))
  have hback : (n.serve .cycle).1.stack.depth ≤ m.stack.depth := by
    have hpop : (n.serve .cycle).1.stack.items = n.stack.items.tail := by
      rw [serve_cycle, hcycle]
      rfl
    rw [CallStack.depth, hpop, hsame, hitems]
    exact Nat.zero_le _
  have hdeep : ∀ before, before <+: [Request.tick] →
      m.stack.depth < (c.after before).stack.depth := by
    intro before hbefore
    have hdepth' : (c.after before).stack = c.stack := by
      rcases List.prefix_cons_iff.1 hbefore with rfl | ⟨rest, rfl, hrest⟩
      · rfl
      · rw [List.prefix_nil.1 hrest]
        rfl
    rw [hdepth, hdepth', CallStack.depth, hitems]
    exact Nat.one_pos
  have hrs : ∀ r ∈ [Request.tick], ¬r.Restarts := by simp [Request.Restarts]
  obtain ⟨htake, hlast⟩ := hreturns [.tick] hrs hdeep
  rw [after_cons, after_nil, ← htick] at htake hlast
  obtain ⟨-, -, hstack', hreturn⟩ := hlast .cycle _ id rfl hback
  have hinside : m.after [.cycle, .tick] = n := by
    rw [after_cons, after_cons, after_nil, serve_cycle, ← hc, htick]
  have hend : m.after [.cycle, .tick, .cycle] = (n.serve .cycle).1 := by
    rw [after_cons, after_cons, after_cons, after_nil, serve_cycle m, ← hc, ← htick]
  rw [hinside, hend]
  refine ⟨hm.reachable, hm.fault, hcall, hroom, ?_, ?_, ?_⟩
  · rw [hdepth, CallStack.toList, CallStack.toList, hstack, hnext] at htake
    exact htake
  · rw [hstack', CallStack.toList, hstack, List.reverse_nil]
  · rw [hreturn, hnext]

end Chip8.Machine
