import Chip8.Machine.Execute
import Chip8.Proofs.Overlay
import Chip8.Proofs.Registers

/-!
# What an instruction can touch

Apart from the registers and the program counter, an instruction changes one part of the machine
at most, and `changes?` is the table of which one. `Writes` is the table of the registers. `Touches`
says the same of machines, and all later statements about what an instruction leaves alone are read
off it.

**Theorem (`touches_perform`).** However an instruction ends, it touches only what the tables
allow.
-/

namespace Chip8

/-- A part of the machine besides the registers and the program counter. -/
inductive Part where
  | screen
  | memory
  | stack
  | index
  | generator
  | delay
  | sound
deriving DecidableEq

namespace Part

def Same (m m' : Machine) : Part → Prop
  | screen => m'.screen = m.screen
  | memory => m'.memory = m.memory
  | stack => m'.stack = m.stack
  | index => m'.index = m.index
  | generator => m'.generator = m.generator
  | delay => m'.timers.delay = m.timers.delay
  | sound => m'.timers.sound = m.timers.sound

end Part

namespace Instruction

/-- The part that an instruction may change. -/
def changes? : Instruction → Option Part
  | .clear | .draw _ _ _ => some .screen
  | .storeDecimal _ | .storeRegisters _ => some .memory
  | .call _ | .ret => some .stack
  | .setIndex _ | .addIndex _ | .glyph _ => some .index
  | .random _ _ => some .generator
  | .setDelay _ => some .delay
  | .setSound _ => some .sound
  | _ => none

/-- The instruction sets `VF` as a flag. -/
def SetsFlag : Instruction → Prop
  | .add _ _ | .sub _ _ | .shiftRight _ | .subFrom _ _ | .shiftLeft _ | .draw _ _ _ => True
  | _ => False

/-- The instruction may change the register `r`. -/
def Writes (r : Register) : Instruction → Prop
  | .setByte x _ | .addByte x _ | .copy x _ | .or x _ | .and x _ | .xor x _ | .random x _
  | .getDelay x | .awaitKey x => r = x
  | .add x _ | .sub x _ | .shiftRight x | .subFrom x _ | .shiftLeft x => r = x ∨ r = .vF
  | .draw _ _ _ => r = .vF
  | .loadRegisters x => r.index ≤ x.index
  | _ => False

/-- What the timers signal while the instruction is executed. -/
def signals : Instruction → List Signal
  | .setSound _ => [.soundSet]
  | _ => []

end Instruction

namespace Machine

/-- Only registers that the instruction may change have new values. -/
def Spared (m : Machine) (ins : Instruction) (regs : Registers) : Prop :=
  ∀ r, ¬ins.Writes r → regs.get r = m.registers.get r

/-- The second machine is the first with new contents where the instruction may change it. -/
inductive Touches (m : Machine) (ins : Instruction) : Machine → Prop
  | pc (pc : UInt16) : Touches m ins { m with pc := pc }
  | registers {regs : Registers} : m.Spared ins regs →
      Touches m ins { m with registers := regs }
  | screen {regs : Registers} (screen : Screen) : ins.changes? = some .screen →
      m.Spared ins regs → Touches m ins { m with screen := screen, registers := regs }
  | memory (memory : Memory) : ins.changes? = some .memory →
      Touches m ins { m with memory := memory }
  | stack (pc : UInt16) (stack : CallStack) : ins.changes? = some .stack →
      Touches m ins { m with pc := pc, stack := stack }
  | index (index : UInt16) : ins.changes? = some .index → Touches m ins { m with index := index }
  | generator {regs : Registers} : ins.changes? = some .generator → m.Spared ins regs →
      Touches m ins { m with generator := m.generator.next, registers := regs }
  | delay (value : UInt8) : ins.changes? = some .delay →
      Touches m ins { m with timers := { m.timers with delay := value } }
  | sound (value : UInt8) : ins.changes? = some .sound →
      Touches m ins { m with timers := { m.timers with sound := value } }

variable {m m' : Machine} {ins : Instruction}

/-! ## What is left alone -/

theorem Touches.refl (m : Machine) (ins : Instruction) : m.Touches ins m :=
  .pc m.pc

theorem Touches.same (h : m.Touches ins m') {part : Part} (hpart : ins.changes? ≠ some part) :
    part.Same m m' := by
  cases h with
  | pc | registers => cases part <;> rfl
  | screen _ hchanges | memory _ hchanges | stack _ _ hchanges | index _ hchanges
  | generator hchanges | delay _ hchanges | sound _ hchanges =>
    rw [hchanges] at hpart
    cases part <;> first | exact absurd rfl hpart | rfl

theorem Touches.reg (h : m.Touches ins m') {r : Register} (hr : ¬ins.Writes r) :
    m'.reg r = m.reg r := by
  cases h with
  | registers hspared | screen _ _ hspared | generator _ hspared => exact hspared r hr
  | _ => rfl

/-! ## Instructions -/

theorem Spared.refl (m : Machine) (ins : Instruction) : m.Spared ins m.registers :=
  fun _ _ => rfl

theorem Spared.set {regs : Registers} (h : m.Spared ins regs) {x : Register} (hx : ins.Writes x)
    (value : UInt8) : m.Spared ins (regs.set x value) := by
  intro r hr
  have hne : r ≠ x := by
    rintro rfl
    exact hr hx
  rw [Registers.get_set_of_ne _ _ hne, h r hr]

theorem touches_setReg {x : Register} (hx : ins.Writes x) (value : UInt8) :
    m.Touches ins (m.setReg x value) :=
  .registers ((Spared.refl m ins).set hx value)

theorem touches_setWithFlag {x : Register} (hx : ins.Writes x) (hflag : ins.Writes .vF)
    (value : UInt8) (condition : Bool) : m.Touches ins (m.setWithFlag x value condition) :=
  .registers (((Spared.refl m ins).set hx value).set hflag _)

theorem touches_skipIf (m : Machine) (ins : Instruction) (condition : Bool) :
    m.Touches ins (m.skipIf condition) := by
  rw [skipIf]
  split
  · exact .pc _
  · exact .refl m ins

theorem touches_returnFromCall (m : Machine) : m.Touches .ret m.returnFromCall.machine := by
  rw [returnFromCall]
  split
  · exact .stack _ _ rfl
  · exact .refl m _

theorem touches_waitForKey (m : Machine) (x : Register) :
    m.Touches (.awaitKey x) (m.waitForKey x).machine := by
  rw [waitForKey]
  split
  · exact touches_setReg (by rfl) _
  · exact .pc _

theorem touches_drawSprite (m : Machine) (x y : Register) (rows : UInt8) :
    m.Touches (.draw x y rows) (m.drawSprite x y rows).machine := by
  have hcleared : m.Spared (.draw x y rows) (m.registers.set .vF 0) :=
    (Spared.refl m _).set (by rfl) 0
  simp only [drawSprite]
  split
  · exact .registers hcleared
  · exact .screen _ rfl (hcleared.set (by rfl) _)

/-- However far storing gets, it leaves the bytes for which there are cells. -/
theorem store_machine (m : Machine) (bytes : List UInt8) :
    (m.store bytes).machine = { m with memory := m.memory.overlay m.index.toNat bytes } := by
  rw [← Memory.writeMany_fst, store]
  split
  · next memory hwrite => rw [hwrite]; rfl
  · next memory e hwrite => rw [hwrite]; rfl

theorem storeUpTo_machine (m : Machine) (x : Register) :
    (m.storeUpTo x).machine =
      { m with memory := m.memory.overlay m.index.toNat (m.registers.block 0 (x.index + 1)) } := by
  have hlength : 0 + (x.index.val + 1) ≤ 16 := by omega
  rw [← storeAll_fst hlength, ← Register.upTo_eq, storeUpTo]
  split
  · next memory hstore => rw [hstore]; rfl
  · next memory fault hstore => rw [hstore]; rfl

theorem loadUpTo_machine (m : Machine) (x : Register) :
    (m.loadUpTo x).machine =
      { m with
        registers := m.registers.overlay 0 (m.memory.block m.index.toNat (x.index + 1)) } := by
  have hlength : 0 + (x.index.val + 1) ≤ 16 := by omega
  rw [← loadAll_fst hlength, ← Register.upTo_eq, loadUpTo]
  split
  · next regs hload => rw [hload]; rfl
  · next regs fault hload => rw [hload]; rfl

/-- Loading goes no farther than the register it is told. -/
theorem touches_loadUpTo (m : Machine) (x : Register) :
    m.Touches (.loadRegisters x) (m.loadUpTo x).machine := by
  rw [loadUpTo_machine]
  refine .registers fun r hr => ?_
  have hbeyond : (m.memory.block m.index.toNat (x.index + 1)).length ≤ r.index.val :=
    Nat.le_trans (List.length_take_le _ _) (Nat.not_le.1 hr)
  exact Registers.get_overlay_of_le _ hbeyond

/-- **What an instruction can touch.** -/
theorem touches_perform (m : Machine) (ins : Instruction) :
    m.Touches ins (m.perform ins).machine := by
  cases ins with
  | clear => exact .screen _ rfl (.refl m _)
  | ret => exact m.touches_returnFromCall
  | jump a => exact .pc a
  | call a => exact .stack _ _ rfl
  | skipIfByte x b | skipUnlessByte x b | skipIfSame x y | skipUnlessSame x y | skipIfKey x
  | skipUnlessKey x => exact m.touches_skipIf _ _
  | setByte x b | addByte x b | copy x y | or x y | and x y | xor x y | getDelay x =>
    exact touches_setReg (by rfl) _
  | add x y | sub x y | shiftRight x | subFrom x y | shiftLeft x =>
    exact touches_setWithFlag (by exact .inl rfl) (by exact .inr rfl) _ _
  | setIndex a | addIndex x | glyph x => exact .index _ rfl
  | jumpOffset a => exact .pc _
  | random x b => exact .generator rfl ((Spared.refl m _).set (by rfl) _)
  | draw x y n => exact m.touches_drawSprite x y n
  | awaitKey x => exact m.touches_waitForKey x
  | setDelay x => exact .delay _ rfl
  | setSound x => exact .sound _ rfl
  | storeDecimal x => exact (m.store_machine _).symm ▸ .memory _ rfl
  | storeRegisters x => exact (m.storeUpTo_machine x).symm ▸ .memory _ rfl
  | loadRegisters x => exact m.touches_loadUpTo x

/-- Only setting the sound timer is heard, whatever value it is set to. -/
theorem perform_signals (m : Machine) (ins : Instruction) :
    (m.perform ins).signals = ins.signals := by
  cases ins with
  | ret =>
    rw [perform, returnFromCall]
    split <;> rfl
  | draw x y n =>
    simp only [perform, drawSprite]
    split <;> rfl
  | awaitKey x =>
    rw [perform, waitForKey]
    split <;> rfl
  | storeDecimal x =>
    rw [perform, store]
    split <;> rfl
  | storeRegisters x =>
    rw [perform, storeUpTo]
    split <;> rfl
  | loadRegisters x =>
    rw [perform, loadUpTo]
    split <;> rfl
  | _ => rfl

end Machine

end Chip8
