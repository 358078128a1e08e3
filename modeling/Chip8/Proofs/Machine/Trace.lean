import Chip8.Proofs.Instruction.Assembly
import Chip8.Proofs.Machine.Reachable

/-!
# What the trace shows

The trace shows the word that was fetched last and, once it is decoded, its mnemonic. Neither has a
brace or a newline, so a trace stands on one line in the section of a save state and is read from it
unchanged (`Storable`).

**Theorem (`mnemonics_identify_instructions`).** A mnemonic names one instruction, also one that no
word is decoded as, and every trace can be saved.
-/

namespace Chip8

namespace SaveState

/-- The text can be the payload of any section: with whatever follows, the section is a line of its
own, and the payload is read from it unchanged. -/
def Storable (payload : List Char) : Prop :=
  ∀ tag ∈ tags, readSection (sectionText tag payload) = .ok (tag, payload) ∧
    ∀ rest, Text.lines (sectionLine tag payload ++ rest) =
      sectionText tag payload :: Text.lines rest

theorem storable_of_clean {payload : List Char} (h : Text.Clean payload) : Storable payload := by
  intro tag htag
  have hplain : Plain payload := ⟨fun hmem => (h _ hmem).1 rfl, fun hmem => (h _ hmem).2.1 rfl⟩
  exact ⟨readSection_sectionText (isTagChar_of_mem htag) hplain, lines_sectionLine_append htag h⟩

end SaveState

namespace Machine

/-- **What a step writes into the trace.** A word that cannot be fetched leaves the trace alone. -/
theorem step_trace (m : Machine) :
    (∃ e, m.fetch = .error e ∧ m.step.machine.trace = m.trace) ∨
    (∃ op e, m.fetch = .ok op ∧ op.decode = .error e ∧ m.step.machine.trace = op.text) ∨
    (∃ op ins, m.fetch = .ok op ∧ op.decode = .ok ins ∧
      m.step.machine.trace = traceText op ins) := by
  rcases m.step_cases with ⟨e, hfetch, hstep⟩ | ⟨op, e, hfetch, hdecode, hstep⟩ |
    ⟨op, ins, hfetch, hdecode, hstep⟩
  · exact .inl ⟨e, hfetch, by rw [hstep]⟩
  · exact .inr (.inl ⟨op, e, hfetch, hdecode, by rw [hstep]; rfl⟩)
  · obtain ⟨n, hmachine⟩ := (m.decoded op ins).executeCounted_cycles ins
    refine .inr (.inr ⟨op, ins, hfetch, hdecode, ?_⟩)
    rw [hstep, hmachine]
    exact ((m.decoded op ins).keeps_perform ins).trace

end Machine

/-- **Mnemonics identify instructions, and every trace can be saved.** -/
theorem mnemonics_identify_instructions :
    (∀ ins ins' : Instruction, ins.mnemonic = ins'.mnemonic ↔ ins = ins') ∧
    (∀ ins : Instruction, Text.Clean ins.mnemonic.toList) ∧
    (∀ (op : Opcode) (ins : Instruction), Text.Clean (Machine.traceText op ins).toList) ∧
    ∀ m : Machine, SaveState.Storable m.reset.trace.toList ∧
      ((∃ e, m.fetch = .error e ∧ m.step.machine.trace = m.trace) ∨
        SaveState.Storable m.step.machine.trace.toList) := by
  refine ⟨fun ins ins' => Instruction.mnemonic_inj, Instruction.clean_mnemonic,
    Machine.clean_traceText, fun m => ⟨SaveState.storable_of_clean ?reset, ?step⟩⟩
  case reset => simp [Machine.reset]
  case step =>
    rcases m.step_trace with hfetch | ⟨op, e, -, -, htrace⟩ | ⟨op, ins, -, -, htrace⟩
    · exact .inl hfetch
    · rw [htrace]
      exact .inr (SaveState.storable_of_clean op.clean_text)
    · rw [htrace]
      exact .inr (SaveState.storable_of_clean (Machine.clean_traceText op ins))

end Chip8
