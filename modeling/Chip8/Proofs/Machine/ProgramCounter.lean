import Chip8.Proofs.Machine.Nesting

/-!
# How far the program counter gets

The program counter is a number of sixteen bits and is reckoned with modulo `2 ^ 16`. A program
never sees this, because a word is fetched only below `0xFFE` and a jump leads below `0x1000`, by at
most `0xFF` more with an offset.

The invariant is `Confined`: the counter is at most `0x10FE`, and the addresses on the stack are
between `2` and `0xFFF`. Both parts are needed. The bound on the addresses gives the bound on the
counter after a return, and fetching gives the bound on the addresses.

**Theorem (`program_counter_confined`).** The invariant holds all along every run from the start
of a program, and no step of it wraps around (`Unwrapped`).
-/

namespace Chip8.Machine

/-- The program counter and the return addresses are in their ranges. -/
structure Confined (m : Machine) : Prop where
  pc_le : m.pc.toNat ≤ 0x10FE
  frames : ∀ a ∈ m.stack.frames, 2 ≤ a.toNat ∧ a.toNat ≤ 0xFFF

/-- Where the step of the machine adds to the program counter or takes from it, the result is the
sum or the difference of the numbers. -/
structure Unwrapped (m : Machine) : Prop where
  /-- The counter moves past the word. -/
  advance : ∀ op, m.fetch = .ok op → (m.advance op).pc.toNat = m.pc.toNat + 2
  /-- The instruction may skip the next one. -/
  skip : ∀ op ins, m.fetch = .ok op → op.decode = .ok ins →
    ((m.decoded op ins).pc + 2).toNat = (m.decoded op ins).pc.toNat + 2
  /-- The instruction may jump with an offset. -/
  jump : ∀ op a, m.fetch = .ok op → op.decode = .ok (.jumpOffset a) →
    ((m.decoded op (.jumpOffset a)).perform (.jumpOffset a)).machine.pc.toNat =
      a.toNat + (m.reg .v0).toNat
  /-- The instruction may point back at itself. -/
  rewind : ∀ op ins, m.fetch = .ok op → op.decode = .ok ins →
    ((m.decoded op ins).pc - 2).toNat + 2 = (m.decoded op ins).pc.toNat

/-! ## Instructions and the program counter -/

theorem drawSprite_pc (m : Machine) (x y : Register) (rows : UInt8) :
    (m.drawSprite x y rows).machine.pc = m.pc := by
  simp only [drawSprite]
  split <;> rfl

theorem store_pc (m : Machine) (bytes : List UInt8) : (m.store bytes).machine.pc = m.pc := by
  rw [store_machine]

theorem storeUpTo_pc (m : Machine) (x : Register) : (m.storeUpTo x).machine.pc = m.pc := by
  rw [storeUpTo_machine]

theorem loadUpTo_pc (m : Machine) (x : Register) : (m.loadUpTo x).machine.pc = m.pc := by
  rw [loadUpTo_machine]

/-- Where an instruction leads. -/
inductive Leads (m : Machine) : Instruction → UInt16 → Prop
  | on (ins : Instruction) : Leads m ins m.pc
  | skip (ins : Instruction) : Leads m ins (m.pc + 2)
  | back (x : Register) : Leads m (.awaitKey x) (m.pc - 2)
  | jump (a : UInt16) : Leads m (.jump a) a
  | call (a : UInt16) : Leads m (.call a) a
  | jumpOffset (a : UInt16) : Leads m (.jumpOffset a) (a + (m.reg .v0).toUInt16)
  | ret {a : UInt16} : a ∈ m.stack.frames → Leads m .ret a

theorem leads_skipIf (m : Machine) (ins : Instruction) (condition : Bool) :
    m.Leads ins (m.skipIf condition).pc := by
  rw [skipIf]
  split
  · exact .skip ins
  · exact .on ins

theorem leads_returnFromCall (m : Machine) : m.Leads .ret m.returnFromCall.machine.pc := by
  rw [returnFromCall, CallStack.pop?]
  cases hframes : m.stack.frames with
  | nil => exact .on _
  | cons address rest =>
    have hmem : address ∈ m.stack.frames := hframes ▸ List.mem_cons_self
    exact .ret hmem

theorem leads_waitForKey (m : Machine) (x : Register) :
    m.Leads (.awaitKey x) (m.waitForKey x).machine.pc := by
  rw [waitForKey]
  split
  · exact .on _
  · exact .back x

/-- **What an instruction can do to the program counter.** -/
theorem leads_perform (m : Machine) (ins : Instruction) :
    m.Leads ins (m.perform ins).machine.pc := by
  cases ins with
  | ret => exact m.leads_returnFromCall
  | jump a => exact .jump a
  | call a => exact .call a
  | jumpOffset a => exact .jumpOffset a
  | skipIfByte x b | skipUnlessByte x b | skipIfSame x y | skipUnlessSame x y | skipIfKey x
  | skipUnlessKey x => exact m.leads_skipIf _ _
  | awaitKey x => exact m.leads_waitForKey x
  | draw x y n => exact (m.drawSprite_pc x y n).symm ▸ .on _
  | storeDecimal x => exact (m.store_pc _).symm ▸ .on _
  | storeRegisters x => exact (m.storeUpTo_pc x).symm ▸ .on _
  | loadRegisters x => exact (m.loadUpTo_pc x).symm ▸ .on _
  | _ => exact .on _

/-! ## One step -/

theorem toNat_two : (2 : UInt16).toNat = 2 := rfl

/-- A word is fetched only where the next address is no farther than `0xFFF`. -/
theorem toNat_advance_pc {m : Machine} {op : Opcode} (h : m.fetch = .ok op) :
    (m.advance op).pc.toNat = m.pc.toNat + 2 ∧ m.pc.toNat + 2 ≤ 0xFFF := by
  obtain ⟨hlt, -⟩ := fetch_eq_ok_iff.1 h
  have hpc : (m.advance op).pc = m.pc + 2 := rfl
  rw [hpc, UInt16.toNat_add, toNat_two]
  omega

/-- While an instruction is executed, the counter is where a call may return to. -/
theorem decoded_pc_bounds {m : Machine} {op : Opcode} (h : m.fetch = .ok op)
    (ins : Instruction) :
    2 ≤ (m.decoded op ins).pc.toNat ∧ (m.decoded op ins).pc.toNat ≤ 0xFFF := by
  obtain ⟨hpc, hle⟩ := toNat_advance_pc h
  have hdecoded : (m.decoded op ins).pc.toNat = m.pc.toNat + 2 := hpc
  omega

theorem toNat_offset_target {a : UInt16} (h : a.toNat < 0x1000) (offset : UInt8) :
    (a + offset.toUInt16).toNat = a.toNat + offset.toNat := by
  have hoffset := offset.toNat_lt
  rw [UInt16.toNat_add, UInt8.toNat_toUInt16]
  omega

theorem toNat_lt_of_jumpOffset {op : Opcode} {a : UInt16} (h : op.decode = .ok (.jumpOffset a)) :
    a.toNat < 0x1000 :=
  (Opcode.decode_eq_ok_iff.1 h).2

theorem unwrapped (m : Machine) : m.Unwrapped where
  advance op h := (toNat_advance_pc h).1
  skip op ins h _ := by
    obtain ⟨-, hle⟩ := decoded_pc_bounds h ins
    rw [UInt16.toNat_add, toNat_two]
    omega
  jump op a _ h := toNat_offset_target (toNat_lt_of_jumpOffset h) _
  rewind op ins h _ := by
    obtain ⟨hge, -⟩ := decoded_pc_bounds h ins
    have hlt := (m.decoded op ins).pc.toNat_lt
    rw [UInt16.toNat_sub, toNat_two]
    omega

/-- From where it is executed, an instruction leads no farther than `0x10FE`. -/
theorem Leads.toNat_le {m : Machine} {op : Opcode} {ins : Instruction} {target : UInt16}
    (h : m.Leads ins target) (hspells : op.Spells ins)
    (hpc : 2 ≤ m.pc.toNat ∧ m.pc.toNat ≤ 0xFFF)
    (hframes : ∀ a ∈ m.stack.frames, a.toNat ≤ 0xFFF) : target.toNat ≤ 0x10FE := by
  obtain ⟨hge, hle⟩ := hpc
  cases h with
  | on => omega
  | skip =>
    rw [UInt16.toNat_add, toNat_two]
    omega
  | back x =>
    have hlt := m.pc.toNat_lt
    rw [UInt16.toNat_sub, toNat_two]
    omega
  | jump a =>
    have ha : target.toNat < 0x1000 := hspells.2
    omega
  | call a =>
    have ha : target.toNat < 0x1000 := hspells.2
    omega
  | jumpOffset a =>
    have ha : a.toNat < 0x1000 := hspells.2
    have hoffset := (m.reg .v0).toNat_lt
    rw [toNat_offset_target ha]
    omega
  | ret ha => exact Nat.le_trans (hframes _ ha) (by decide)

theorem Confined.step {m : Machine} (h : m.Confined) : m.step.machine.Confined where
  pc_le := by
    rcases m.step_cases with
      ⟨e, -, hstep⟩ | ⟨op, e, hfetch, -, hstep⟩ | ⟨op, ins, hfetch, hdecode, hstep⟩
    · rw [hstep]
      exact h.pc_le
    · obtain ⟨hpc, hle⟩ := toNat_advance_pc hfetch
      rw [hstep, hpc]
      omega
    · obtain ⟨n, hmachine⟩ := (m.decoded op ins).executeCounted_cycles ins
      rw [hstep, hmachine]
      exact ((m.decoded op ins).leads_perform ins).toNat_le (Opcode.decode_eq_ok_iff.1 hdecode)
        (decoded_pc_bounds hfetch ins) fun a ha => (h.frames a ha).2
  frames := by
    rcases m.step_stack_cases with
      hsame | ⟨op, target, hholds, -, hpush⟩ | ⟨address, rest, -, hframes, -, hpop⟩
    · rw [hsame]
      exact h.frames
    · -- The address after a call is one that the counter had when it was executed.
      have hback := decoded_pc_bounds (fetch_eq_ok_iff.2 hholds) (.call target)
      rw [hpush]
      exact List.forall_mem_cons.2 ⟨hback, h.frames⟩
    · rw [hpop]
      have hall := h.frames
      rw [hframes] at hall
      exact (List.forall_mem_cons.1 hall).2

/-! ## Whole runs -/

theorem confined_of_start {m : Machine} (hpc : m.pc = 0x200) (hstack : m.stack.frames = []) :
    m.Confined where
  pc_le := by
    rw [hpc]
    decide
  frames := by
    rw [hstack]
    exact List.forall_mem_nil _

theorem Confined.react {m : Machine} (h : m.Confined) (e : Event) :
    (m.react e).machine.Confined := by
  cases e with
  | step => exact h.step
  | reset => exact confined_of_start rfl rfl
  | _ => exact ⟨h.pc_le, h.frames⟩

theorem Confined.after {m : Machine} (h : m.Confined) (events : List Event) :
    (m.after events).Confined := by
  induction events generalizing m with
  | nil => exact h
  | cons e events ih => exact ih (h.react e)

/-- **The program counter of a program stays in its range.** From the start of a program with an
empty stack on, whatever the memory holds and whatever happens to the machine, the counter is at
most `0x10FE` and the return addresses are between `2` and `0xFFF`, and the next step does not
wrap around. -/
theorem program_counter_confined {m : Machine} (hpc : m.pc = 0x200) (hstack : m.stack.frames = [])
    (events : List Event) :
    (m.after events).pc.toNat ≤ 0x10FE ∧
      (∀ a ∈ (m.after events).stack.frames, 2 ≤ a.toNat ∧ a.toNat ≤ 0xFFF) ∧
      (m.after events).Unwrapped :=
  have h := (confined_of_start hpc hstack).after events
  ⟨h.pc_le, h.frames, unwrapped _⟩

theorem program_counter_confined_calling :
    (calling.after [.step, .tick, .step]).pc.toNat ≤ 0x10FE ∧
      (∀ a ∈ (calling.after [.step, .tick, .step]).stack.frames, 2 ≤ a.toNat ∧ a.toNat ≤ 0xFFF) ∧
      (calling.after [.step, .tick, .step]).Unwrapped :=
  program_counter_confined rfl rfl [.step, .tick, .step]

end Chip8.Machine
