import Chip8.Proofs.Machine.Event
import Chip8.Proofs.Machine.Failure

/-!
# Subroutine calls nest

A call puts its return address on the stack, and nothing but the matching return takes it off. The
invariant is `Inside`: the stack begins, outermost first, with the frames of the caller and the
return address. A step keeps this or is the return that ends the call (`inside_step_or_returns`).

**Theorem (`calls_nest`).** From a call on, the machine is inside the subroutine until the stack
is as deep again as it was before the call. The step that makes it so is a return, and it leads
to the address after the call with the stack of the caller.
-/

namespace Chip8.Machine

/-! ## Instructions and the stack -/

theorem returnFromCall_cases (m : Machine) :
    m.returnFromCall.machine.stack = m.stack ∨
      ∃ address rest, m.stack.frames = address :: rest ∧
        m.returnFromCall = done { m with pc := address, stack := ⟨rest⟩ } := by
  rw [returnFromCall, CallStack.pop?]
  cases h : m.stack.frames with
  | nil => exact .inl rfl
  | cons address rest => exact .inr ⟨address, rest, rfl, rfl⟩

/-- Only calls and returns touch the stack. -/
theorem perform_stack_cases (m : Machine) (ins : Instruction) :
    (m.perform ins).machine.stack = m.stack ∨
      (∃ target, ins = .call target ∧ (m.perform ins).machine.stack = m.stack.push m.pc) ∨
      ∃ address rest, ins = .ret ∧ m.stack.frames = address :: rest ∧
        m.perform ins = done { m with pc := address, stack := ⟨rest⟩ } := by
  cases ins with
  | ret =>
    rcases m.returnFromCall_cases with h | ⟨address, rest, hframes, hreturn⟩
    · exact .inl h
    · exact .inr (.inr ⟨address, rest, rfl, hframes, hreturn⟩)
  | call target => exact .inr (.inl ⟨target, rfl, rfl⟩)
  | _ =>
    left
    show Part.stack.Same m _
    exact (m.touches_perform _).same nofun

/-! ## Steps and the stack -/

/-- The step is a return from a subroutine. -/
def Returns (m : Machine) : Prop :=
  (∃ op, m.Holds op ∧ op.Spells .ret) ∧ m.step.result = .ok .executed

theorem step_of_spells {m : Machine} {op : Opcode} {ins : Instruction} (hholds : m.Holds op)
    (hspells : op.Spells ins) : m.step = (m.decoded op ins).executeCounted ins :=
  step_of_decode (fetch_eq_ok_iff.2 hholds) (Opcode.decode_eq_ok_iff.2 hspells)

theorem step_of_done {m m' : Machine} {op : Opcode} {ins : Instruction} (hholds : m.Holds op)
    (hspells : op.Spells ins) (h : (m.decoded op ins).perform ins = done m') :
    m.step.machine.memory = m'.memory ∧ m.step.machine.pc = m'.pc ∧
      m.step.machine.stack = m'.stack := by
  obtain ⟨n, hmachine⟩ := (m.decoded op ins).executeCounted_cycles ins
  rw [step_of_spells hholds hspells, hmachine, h]
  exact ⟨rfl, rfl, rfl⟩

theorem step_stack_of_call {m : Machine} {op : Opcode} {target : UInt16} (hholds : m.Holds op)
    (hspells : op.Spells (.call target)) :
    m.step.machine.stack = m.stack.push (m.pc + 2) := by
  exact (step_of_done hholds hspells rfl).2.2

theorem step_stack_of_return {m : Machine} {op : Opcode} {address : UInt16} {rest : List UInt16}
    (hholds : m.Holds op) (hspells : op.Spells .ret) (hframes : m.stack.frames = address :: rest) :
    m.step.machine.stack = ⟨rest⟩ := by
  have hdecoded : (m.decoded op .ret).stack.frames = address :: rest := hframes
  have hreturn : (m.decoded op .ret).perform .ret =
      done { m.decoded op .ret with pc := address, stack := ⟨rest⟩ } := by
    rw [perform, returnFromCall, CallStack.pop?, hdecoded]
  exact (step_of_done hholds hspells hreturn).2.2

/-- **What a step can do to the stack.** -/
theorem step_stack_cases (m : Machine) :
    m.step.machine.stack = m.stack ∨
      (∃ op target, m.Holds op ∧ op.Spells (.call target) ∧
        m.step.machine.stack = m.stack.push (m.pc + 2)) ∨
      ∃ address rest, m.Returns ∧ m.stack.frames = address :: rest ∧
        m.step.machine.pc = address ∧ m.step.machine.stack = ⟨rest⟩ := by
  rcases m.step_cases with ⟨e, -, hstep⟩ | ⟨op, e, -, -, hstep⟩ | ⟨op, ins, hfetch, hdecode, hstep⟩
  · exact .inl (by rw [hstep])
  · exact .inl (by rw [hstep]; rfl)
  · have hholds := fetch_eq_ok_iff.1 hfetch
    have hspells := Opcode.decode_eq_ok_iff.1 hdecode
    -- Counting the cycle leaves the stack and the program counter to the instruction.
    obtain ⟨n, hmachine⟩ := (m.decoded op ins).executeCounted_cycles ins
    rw [← hstep] at hmachine
    have hstack : m.step.machine.stack = ((m.decoded op ins).perform ins).machine.stack := by
      rw [hmachine]
    have hpc : m.step.machine.pc = ((m.decoded op ins).perform ins).machine.pc := by
      rw [hmachine]
    rcases (m.decoded op ins).perform_stack_cases ins with
      h | ⟨target, rfl, h⟩ | ⟨address, rest, rfl, hframes, hperform⟩
    · exact .inl (hstack.trans h)
    · exact .inr (.inl ⟨op, target, hholds, hspells, hstack.trans h⟩)
    · have hresult : m.step.result = .ok .executed := by
        rw [hstep, executeCounted_result, hperform]
        rfl
      rw [hperform] at hstack hpc
      exact .inr (.inr ⟨address, rest, ⟨⟨op, hholds, hspells⟩, hresult⟩, hframes, hpc, hstack⟩)

/-! ## Inside a subroutine -/

/-- The machine is inside a subroutine that was called with the stack `outer` and returns to
`back`. -/
def Inside (m : Machine) (outer : CallStack) (back : UInt16) : Prop :=
  outer.toList ++ [back] <+: m.stack.toList

theorem toList_push (stack : CallStack) (address : UInt16) :
    (stack.push address).toList = stack.toList ++ [address] := by
  simp [CallStack.toList, CallStack.push]

theorem toList_of_frames {stack : CallStack} {address : UInt16} {rest : List UInt16}
    (h : stack.frames = address :: rest) :
    stack.toList = (CallStack.mk rest).toList ++ [address] := by
  simp [CallStack.toList, h]

theorem Inside.depth_lt {m : Machine} {outer : CallStack} {back : UInt16}
    (h : m.Inside outer back) : outer.depth < m.stack.depth := by
  have hlength := h.length_le
  simp only [CallStack.toList, List.length_append, List.length_reverse, List.length_singleton]
    at hlength
  exact hlength

theorem inside_of_call {m : Machine} {op : Opcode} {target : UInt16} (hholds : m.Holds op)
    (hspells : op.Spells (.call target)) : m.step.machine.Inside m.stack (m.pc + 2) := by
  have hstack : m.step.machine.stack.toList = m.stack.toList ++ [m.pc + 2] := by
    rw [step_stack_of_call hholds hspells, toList_push]
  exact ⟨[], by rw [List.append_nil, hstack]⟩

/-- A step stays inside the subroutine or is the return that leaves it. -/
theorem inside_step_or_returns {m : Machine} {outer : CallStack} {back : UInt16}
    (h : m.Inside outer back) :
    m.step.machine.Inside outer back ∨
      m.Returns ∧ m.step.machine.pc = back ∧ m.step.machine.stack = outer := by
  rcases m.step_stack_cases with
    hsame | ⟨op, target, -, -, hpush⟩ | ⟨address, rest, hreturns, hframes, hpc, hpop⟩
  · exact .inl (by rw [Inside, hsame]; exact h)
  · refine .inl ?_
    rw [Inside, hpush, toList_push]
    exact h.trans (List.prefix_append _ _)
  · rw [Inside, toList_of_frames hframes, List.prefix_concat_iff] at h
    rcases h with hall | hinner
    · obtain ⟨houter, hback⟩ := List.append_inj' hall rfl
      refine .inr ⟨hreturns, hpc.trans (List.singleton_inj.1 hback).symm, ?_⟩
      have hrest : outer = ⟨rest⟩ := congrArg CallStack.mk (List.reverse_inj.1 houter)
      rw [hpop, hrest]
    · exact .inl (by rw [Inside, hpop]; exact hinner)

theorem react_stack {m : Machine} {e : Event} (hstep : e ≠ .step) (hreset : e ≠ .reset) :
    (m.react e).machine.stack = m.stack := by
  cases e with
  | step => exact absurd rfl hstep
  | reset => exact absurd rfl hreset
  | _ => rfl

/-- As long as no step comes back to the caller's depth, the machine stays inside. -/
theorem Inside.after {m : Machine} {outer : CallStack} {back : UInt16} {events : List Event}
    (h : m.Inside outer back) (hreset : .reset ∉ events)
    (hopen : ∀ front, front ++ [.step] <+: events →
      (m.after (front ++ [.step])).stack.depth ≠ outer.depth) :
    (m.after events).Inside outer back := by
  induction events generalizing m with
  | nil => exact h
  | cons e events ih =>
    obtain ⟨hne, hrest⟩ := List.ne_and_not_mem_of_not_mem_cons hreset
    have hnext : (m.react e).machine.Inside outer back := by
      by_cases he : e = .step
      · subst he
        rcases inside_step_or_returns h with hin | ⟨-, -, hout⟩
        · exact hin
        · exact absurd (congrArg CallStack.depth hout) (hopen [] (by simp))
      · rw [Inside, react_stack he (Ne.symm hne)]
        exact h
    refine ih hnext hrest fun front hfront => ?_
    exact hopen (e :: front) (List.cons_prefix_cons.2 ⟨rfl, hfront⟩)

/-- **Calls nest.** After a call, and as long as no later step has come back to the depth of the
caller, the stack begins with the frames of the caller and the address after the call. The step
that then comes back to that depth is a return, and it restores both. -/
theorem calls_nest {m : Machine} {op : Opcode} {target : UInt16} (hholds : m.Holds op)
    (hcall : op.Spells (.call target)) {events : List Event} (hreset : .reset ∉ events)
    (hopen : ∀ front, front ++ [.step] <+: events →
      (m.step.machine.after (front ++ [.step])).stack.depth ≠ m.stack.depth) :
    m.stack.toList ++ [m.pc + 2] <+: (m.step.machine.after events).stack.toList ∧
      ((m.step.machine.after events).step.machine.stack.depth = m.stack.depth →
        (m.step.machine.after events).Returns ∧
          (m.step.machine.after events).step.machine.pc = m.pc + 2 ∧
          (m.step.machine.after events).step.machine.stack = m.stack) := by
  have hinside := (inside_of_call hholds hcall).after hreset hopen
  refine ⟨hinside, fun hdepth => ?_⟩
  rcases inside_step_or_returns hinside with hin | hout
  · exact absurd hdepth (Nat.ne_of_gt hin.depth_lt)
  · exact hout

/-- A memory with a call of the subroutine `LD V0, #05; RET`. -/
@[irreducible] def callingMemory : Memory :=
  Memory.fresh.load #[0x22, 0x04, 0, 0, 0x60, 0x05, 0x00, 0xEE]

/-- A machine before that call. -/
def calling : Machine :=
  { fresh (.ofSeed 0 0 0 0) with memory := callingMemory }

theorem callingMemory_eq :
    callingMemory = Memory.fresh.load #[0x22, 0x04, 0, 0, 0x60, 0x05, 0x00, 0xEE] := by
  unfold callingMemory
  rfl

theorem holds_callingMemory {m : Machine} (hmemory : m.memory = callingMemory) :
    (m.pc = 0x200 → m.Holds ⟨0x2204⟩) ∧ (m.pc = 0x204 → m.Holds ⟨0x6005⟩) ∧
      (m.pc = 0x206 → m.Holds ⟨0x00EE⟩) := by
  have hload := hmemory.trans callingMemory_eq
  refine ⟨fun hpc => ?_, fun hpc => ?_, fun hpc => ?_⟩
  · have hat : m.pc.toNat = Memory.programStart + 0 := by rw [hpc]; decide
    exact holds_of_load hload hat (by decide) (by decide) (by decide : 0x2204 = 0x22 * 256 + 0x04)
  · have hat : m.pc.toNat = Memory.programStart + 4 := by rw [hpc]; decide
    exact holds_of_load hload hat (by decide) (by decide) (by decide : 0x6005 = 0x60 * 256 + 0x05)
  · have hat : m.pc.toNat = Memory.programStart + 6 := by rw [hpc]; decide
    exact holds_of_load hload hat (by decide) (by decide) (by decide : 0x00EE = 0x00 * 256 + 0xEE)

theorem spells_calling : Opcode.Spells ⟨0x2204⟩ (.call 0x204) :=
  ⟨by decide, by decide⟩

theorem tick_eq (m : Machine) : m.tick.1 = { m with timers := m.timers.tick.1 } := rfl

theorem after_call {m : Machine} (hmemory : m.memory = callingMemory) (hpc : m.pc = 0x200) :
    (m.step.machine.after [.tick, .step]).memory = callingMemory ∧
      (m.step.machine.after [.tick, .step]).pc = 0x206 ∧
      (m.step.machine.after [.tick, .step]).stack = m.stack.push (m.pc + 2) := by
  have hcall : m.Holds ⟨0x2204⟩ := (holds_callingMemory hmemory).1 hpc
  obtain ⟨hmemory₁, hpc₁, hstack₁⟩ := step_of_done hcall spells_calling rfl
  have hafter : m.step.machine.after [.tick, .step] = m.step.machine.tick.1.step.machine := rfl
  rw [hafter, tick_eq]
  generalize m.step.machine = inside at *
  have hset : { inside with timers := inside.timers.tick.1 }.Holds ⟨0x6005⟩ :=
    (holds_callingMemory (hmemory₁.trans hmemory)).2.1 hpc₁
  have hspells : Opcode.Spells ⟨0x6005⟩ (.setByte .v0 5) :=
    (by decide : 0x6005 = 0x6 * 0x1000 + 0 * 0x100 + 0x05)
  obtain ⟨hmemory₂, hpc₂, hstack₂⟩ := step_of_done hset hspells rfl
  refine ⟨hmemory₂.trans (hmemory₁.trans hmemory), hpc₂.trans ?_, hstack₂.trans hstack₁⟩
  have hadvance : inside.pc + 2 = 0x206 := by rw [hpc₁]; rfl
  exact hadvance

theorem calls_nest_calling :
    calling.stack.toList ++ [calling.pc + 2] <+:
        (calling.step.machine.after [.tick, .step]).stack.toList ∧
      (calling.step.machine.after [.tick, .step]).Returns ∧
      (calling.step.machine.after [.tick, .step]).step.machine.pc = calling.pc + 2 ∧
      (calling.step.machine.after [.tick, .step]).step.machine.stack = calling.stack := by
  have hcall : calling.Holds ⟨0x2204⟩ := (holds_callingMemory (m := calling) rfl).1 rfl
  obtain ⟨hmemory, hpc, hstack⟩ := after_call (m := calling) rfl rfl
  have hopen (front : List Event) (hfront : front ++ [.step] <+: [.tick, .step]) :
      (calling.step.machine.after (front ++ [.step])).stack.depth ≠ calling.stack.depth := by
    have hwhole : front ++ [.step] = [.tick, .step] := by
      rcases front with - | ⟨e, - | ⟨e', front⟩⟩ <;> simp_all [List.cons_prefix_cons]
    rw [hwhole, hstack]
    decide
  have hreturn : (calling.step.machine.after [.tick, .step]).Holds ⟨0x00EE⟩ :=
    (holds_callingMemory hmemory).2.2 hpc
  have hpop : (calling.step.machine.after [.tick, .step]).step.machine.stack = ⟨[]⟩ :=
    step_stack_of_return hreturn (by decide : 0x00EE = 0x00EE) (congrArg CallStack.frames hstack)
  obtain ⟨hbegins, hreturns⟩ := calls_nest hcall spells_calling (by decide) hopen
  exact ⟨hbegins, hreturns (congrArg CallStack.depth hpop)⟩

end Chip8.Machine
