import Chip8.Proofs.Machine.Footprint
import Chip8.Proofs.Machine.ProgramCounter

/-!
# What a step that runs to its end may change

`Effects` lists everything that the step of an instruction may change, and leaves the rest alone.
The tables `changes?`, `Writes` and `signals` tell which instructions change which part,
`SetsFlag` which of them leave a flag in `VF`, and `Continues` where the program goes on.

**Theorem (`executed_step_effects`).** A step that executes its instruction to the end has fetched
a word that spells it, and has exactly these effects.
-/

namespace Chip8

namespace Instruction

/-- The instruction says where the program goes on. -/
def Jumps : Instruction → Prop
  | .ret | .jump _ | .call _ | .jumpOffset _ => True
  | _ => False

end Instruction

namespace Machine

/-- The condition of a skip holds. -/
def Skips (m : Machine) : Instruction → Prop
  | .skipIfByte x b => m.reg x = b
  | .skipUnlessByte x b => m.reg x ≠ b
  | .skipIfSame x y => m.reg x = m.reg y
  | .skipUnlessSame x y => m.reg x ≠ m.reg y
  | .skipIfKey x => ∃ k, m.keypad.held = some k ∧ k.code.val = (m.reg x).toNat
  | .skipUnlessKey x => ¬∃ k, m.keypad.held = some k ∧ k.code.val = (m.reg x).toNat
  | _ => False

/-- Where the program goes on after an instruction at the program counter. -/
inductive Continues (m : Machine) : Instruction → UInt16 → Prop
  | next {ins : Instruction} : ¬ins.Jumps → ¬m.Skips ins → Continues m ins (m.pc + 2)
  | skip {ins : Instruction} : m.Skips ins → Continues m ins (m.pc + 4)
  | jump (a : UInt16) : Continues m (.jump a) a
  | call (a : UInt16) : Continues m (.call a) a
  | jumpOffset (a : UInt16) : Continues m (.jumpOffset a) (a + (m.reg .v0).toUInt16)
  | ret {a : UInt16} {rest : List UInt16} : m.stack.frames = a :: rest → Continues m .ret a

/-- What a step may change that executes the instruction `ins`, which stands as the word `op` at
the program counter. -/
structure Effects (m : Machine) (op : Opcode) (ins : Instruction)
    (out : Outcome StepError) : Prop where
  parts : ∀ part, ins.changes? ≠ some part → part.Same m out.machine
  /-- A random number is one draw. -/
  generator : ins.changes? = some .generator → out.machine.generator = m.generator.next
  signals : out.signals = ins.signals
  keypad : out.machine.keypad = m.keypad
  control : out.machine.control = m.control
  registers : ∀ r, ¬ins.Writes r → out.machine.reg r = m.reg r
  flag : ins.SetsFlag → ∃ condition, out.machine.reg .vF = Machine.flag condition
  pc : m.Continues ins out.machine.pc
  trace : out.machine.trace = op.text ++ " " ++ ins.mnemonic

variable {m : Machine} {op : Opcode} {ins : Instruction}

/-! ## The flag -/

theorem setWithFlag_flag (m : Machine) (x : Register) (value : UInt8) (condition : Bool) :
    (m.setWithFlag x value condition).reg .vF = flag condition :=
  Registers.get_set_self _ _ _

/-- A drawing that fails has cleared the flag. -/
theorem drawSprite_flag (m : Machine) (x y : Register) (rows : UInt8) :
    ∃ condition, (m.drawSprite x y rows).machine.reg .vF = flag condition := by
  simp only [drawSprite]
  split
  · exact ⟨false, Registers.get_set_self _ _ _⟩
  · exact ⟨_, Registers.get_set_self _ _ _⟩

theorem perform_flag (m : Machine) (h : ins.SetsFlag) :
    ∃ condition, (m.perform ins).machine.reg .vF = flag condition := by
  cases ins with
  | add x y | sub x y | shiftRight x | subFrom x y | shiftLeft x =>
    exact ⟨_, setWithFlag_flag _ _ _ _⟩
  | draw x y n => exact m.drawSprite_flag x y n
  | _ => exact False.elim h

theorem perform_generator (m : Machine) (h : ins.changes? = some .generator) :
    (m.perform ins).machine.generator = m.generator.next := by
  cases ins with
  | random x b => rfl
  | _ => cases h

/-! ## Where the program goes on -/

theorem continues_skipIf {condition : Bool} (hjumps : ¬ins.Jumps)
    (hskips : condition = true ↔ m.Skips ins) :
    m.Continues ins ((m.decoded op ins).skipIf condition).pc := by
  rw [skipIf]
  split
  · next h =>
    have hpc : (m.decoded op ins).pc + 2 = m.pc + 4 := UInt16.add_assoc m.pc 2 2
    rw [hpc]
    exact .skip (hskips.1 h)
  · next h => exact .next hjumps fun hholds => h (hskips.2 hholds)

theorem holdsKey_iff (m : Machine) (x : Register) :
    m.holdsKey x = true ↔ ∃ k, m.keypad.held = some k ∧ k.code.val = (m.reg x).toNat := by
  rw [holdsKey]
  cases m.keypad.held <;> simp

theorem continues_perform (h : ((m.decoded op ins).perform ins).result = .ok .executed) :
    m.Continues ins ((m.decoded op ins).perform ins).machine.pc := by
  cases ins with
  | ret =>
    rw [perform, returnFromCall, CallStack.pop?] at h ⊢
    cases hframes : (m.decoded op .ret).stack.frames with
    | nil =>
      rw [hframes] at h
      cases h
    | cons a rest => exact .ret hframes
  | jump a => exact .jump a
  | call a => exact .call a
  | jumpOffset a => exact .jumpOffset a
  | skipIfByte x b | skipIfSame x y => exact continues_skipIf id beq_iff_eq
  | skipUnlessByte x b | skipUnlessSame x y => exact continues_skipIf id bne_iff_ne
  | skipIfKey x => exact continues_skipIf id (m.holdsKey_iff x)
  | skipUnlessKey x =>
    refine continues_skipIf id ?_
    rw [Skips, ← holdsKey_iff, Bool.not_eq_true, Bool.not_eq_true']
    exact Iff.rfl
  | awaitKey x =>
    rw [perform, waitForKey] at h ⊢
    split at h
    · exact .next id id
    · cases h
  | draw x y n => exact (drawSprite_pc _ x y n).symm ▸ .next id id
  | storeDecimal x => exact (store_pc _ _).symm ▸ .next id id
  | storeRegisters x => exact (storeUpTo_pc _ x).symm ▸ .next id id
  | loadRegisters x => exact (loadUpTo_pc _ x).symm ▸ .next id id
  | _ => exact .next id id

/-! ## The whole step -/

theorem executeCounted_signals (m : Machine) (ins : Instruction) :
    (m.executeCounted ins).signals = ins.signals := by
  rw [← m.perform_signals ins, executeCounted]
  split <;> rfl

/-- **What a step may change.** A step that executes its instruction to the end changes nothing
but what the tables tell of that instruction, goes on where the instruction says and shows its
word and mnemonic. -/
theorem executed_step_effects (h : m.step.result = .ok .executed) :
    ∃ op ins, m.Holds op ∧ op.Spells ins ∧ m.Effects op ins m.step := by
  rcases m.step_cases with ⟨e, -, hstep⟩ | ⟨op, e, -, -, hstep⟩ | ⟨op, ins, hfetch, hdecode, hstep⟩
  · rw [hstep] at h
    cases h
  · rw [hstep] at h
    cases h
  · refine ⟨op, ins, fetch_eq_ok_iff.1 hfetch, Opcode.decode_eq_ok_iff.1 hdecode, ?_⟩
    rw [hstep, executeCounted_result, mapError_eq_ok_iff] at h
    have htouches := (m.decoded op ins).touches_perform ins
    -- Counting comes last and changes the cycle counter alone.
    obtain ⟨n, hmachine⟩ := (m.decoded op ins).executeCounted_cycles ins
    have hsignals := (m.decoded op ins).executeCounted_signals ins
    rw [hstep]
    generalize (m.decoded op ins).executeCounted ins = out at *
    obtain ⟨machine, signals, result⟩ := out
    subst hmachine
    exact {
      parts := fun part hpart => by
        have hsame := htouches.same hpart
        cases part <;> exact hsame
      generator := perform_generator _
      signals := hsignals
      keypad := htouches.keeps.keypad
      control := htouches.keeps.control
      registers := fun r hr => htouches.reg hr
      flag := perform_flag _
      pc := continues_perform h
      trace := htouches.keeps.trace }

/-- A machine with the program `LD ST, V0`, where `V0` is zero. -/
def sounding : Machine :=
  { fresh (.ofSeed 0 0 0 0) with memory := Memory.fresh.load #[0xF0, 0x18] }

theorem step_sounding : sounding.step.result = .ok .executed := by
  have hholds : sounding.Holds ⟨0xF018⟩ :=
    holds_of_load (i := 0) rfl (by decide) (by decide) (by decide) (by decide)
  have hspells : Opcode.Spells ⟨0xF018⟩ (.setSound .v0) :=
    (by decide : 0xF018 = 0xF * 0x1000 + 0 * 0x100 + 0x18)
  rw [step_of_spells hholds hspells, executeCounted_result]
  rfl

theorem executed_step_effects_sounding :
    sounding.step.result = .ok .executed ∧
      ∃ op ins, sounding.Holds op ∧ op.Spells ins ∧ sounding.Effects op ins sounding.step :=
  ⟨step_sounding, executed_step_effects step_sounding⟩

end Machine

end Chip8
