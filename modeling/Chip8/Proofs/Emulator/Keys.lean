import Chip8.Proofs.Emulator.Program
import Chip8.Proofs.History

/-!
# Which key is held

A host key that goes down presses the key that it is bound to, one that goes up releases it, and
nothing else that is asked of an emulator touches the keypad (`held_serve_iff`). The keypad
remembers one key only: a press replaces the key before it, and the release of another key is
nothing.

**Theorem (`last_press_counts`).** The key that is held is the one that was pressed last, if it was
not released since.
-/

namespace Chip8

/-! ## Presses and releases -/

namespace Request

def pressed? (keys : KeyConfig) : Request → Option Key
  | .keyDown key => (keys.action key).key?
  | _ => none

def released? (keys : KeyConfig) : Request → Option Key
  | .keyUp key => (keys.action key).key?
  | _ => none

end Request

/-- The last press is that of this key, and the key was not released after it. -/
def PressedSince (keys : KeyConfig) (requests : List Request) (k : Key) : Prop :=
  Since (fun r => r.pressed? keys = some k)
    (fun r => r.pressed? keys = none ∧ r.released? keys ≠ some k) requests

namespace Keypad

theorem held_trigger_iff {action : KeyAction} {pad : Keypad} {k : Key} :
    (action.trigger pad).held = some k ↔
      action.key? = some k ∨ action.key? = none ∧ pad.held = some k := by
  cases action with
  | press k' => simp [KeyAction.trigger, KeyAction.key?, press]
  | idle => simp [KeyAction.trigger, KeyAction.key?]

theorem held_releaseKey_iff {pad : Keypad} {k k' : Key} :
    (pad.releaseKey k').held = some k ↔ k' ≠ k ∧ pad.held = some k := by
  rw [releaseKey]
  split
  · next hheld => simp [hheld]
  · next hheld =>
    refine ⟨fun h => ⟨?_, h⟩, And.right⟩
    rintro rfl
    exact hheld h

theorem releaseKey_of_ne {pad : Keypad} {k : Key} (h : pad.held ≠ some k) :
    pad.releaseKey k = pad :=
  if_neg h

end Keypad

theorem Machine.Restores.keypad {m : Machine} {s : SaveState} {r : Restoration}
    (h : m.Restores s r) : r.machine.keypad = m.keypad := by
  cases h with
  | memoryRefused | screenRefused => rfl
  | installed _ _ _ hkeypad => exact hkeypad

namespace Emulator

/-! ## One request -/

theorem stable_keypad (pad : Keypad) : Stable fun e => e.machine.keypad = pad where
  step {e} h := e.machine.step_keypad_control.1.trans h
  tick h := h
  stop h := h

theorem loadState_keypad (e : Emulator) (s : SaveState) :
    (e.loadState s).emulator.machine.keypad = e.machine.keypad := by
  have hmachine : (e.loadState s).emulator.machine = (e.machine.restoring s).machine := rfl
  rw [hmachine]
  exact (e.machine.restoring_spec s).keypad

theorem loadProgram_keypad (e : Emulator) (source : Source) :
    (e.loadProgram source).emulator.machine.keypad = e.machine.keypad := by
  cases source with
  | error error => exact e.started_unload.machine.keypad
  | ok bytes => exact (e.started_loadProgram bytes).machine.keypad

/-- **One request.** A key is held if the request presses it, or if it was held before and the
request neither presses another key nor releases it. -/
theorem held_serve_iff {e : Emulator} {r : Request} {k : Key} :
    (e.serve r).machine.keypad.held = some k ↔
      r.pressed? e.keys = some k ∨
        (r.pressed? e.keys = none ∧ r.released? e.keys ≠ some k) ∧
          e.machine.keypad.held = some k := by
  -- What is not about host keys leaves the keypad.
  have hother : ∀ {pad : Keypad}, pad = e.machine.keypad →
      (pad.held = some k ↔ (none : Option Key) = some k ∨
        ((none : Option Key) = none ∧ (none : Option Key) ≠ some k) ∧
          e.machine.keypad.held = some k) := by
    rintro pad rfl
    simp
  cases r with
  | keyDown key =>
    have hkeypad : (e.serve (.keyDown key)).machine.keypad =
        (e.keys.action key).trigger e.machine.keypad := rfl
    rw [hkeypad, Keypad.held_trigger_iff]
    simp [Request.pressed?, Request.released?]
  | keyUp key =>
    simp only [Request.pressed?, Request.released?]
    rw [serve, keyUp]
    split
    · next k' hkey =>
      have hkeypad : (e.withMachine (·.releaseKey k')).machine.keypad =
          e.machine.keypad.releaseKey k' := rfl
      rw [hkeypad, Keypad.held_releaseKey_iff, hkey]
      simp
    · next hkey => simp [hkey]
  | start =>
    refine hother ?_
    rw [serve]
    exact e.start_preserves rfl rfl
  | step => exact hother e.machine.step_keypad_control.1
  | executeCycles owed =>
    exact hother ((stable_keypad e.machine.keypad).executeCycles rfl owed)
  | drive owed => exact hother ((stable_keypad e.machine.keypad).driven rfl owed)
  | setSpeed factor =>
    refine hother ?_
    rw [serve, setSpeed]
    split <;> rfl
  | loadState s => exact hother (e.loadState_keypad s)
  | loadStateFile path contents =>
    refine hother ?_
    rw [serve]
    exact e.loadStateFile_preserves path contents rfl e.loadState_keypad
  | reset => exact hother rfl
  | loadProgram source => exact hother (e.loadProgram_keypad source)
  | loadProgramFile path opened =>
    refine hother ?_
    rw [serve]
    exact e.loadProgramFile_preserves path opened rfl e.loadProgram_keypad
  | _ => exact hother rfl

theorem keyUp_of_not_held {e : Emulator} {key : HostKey}
    (h : ∀ k, (e.keys.action key).key? = some k → e.machine.keypad.held ≠ some k) :
    e.keyUp key = e := by
  rw [keyUp]
  split
  · next k hkey =>
    have hmachine : e.machine.releaseKey k = e.machine := by
      rw [Machine.releaseKey, Keypad.releaseKey_of_ne (h k hkey)]
    rw [withMachine, hmachine]
  · rfl

/-! ## Many requests -/

theorem after_concat (e : Emulator) (requests : List Request) (r : Request) :
    e.after (requests ++ [r]) = (e.after requests).serve r := by
  induction requests generalizing e with
  | nil => rfl
  | cons r' requests ih => exact ih (e.serve r')

theorem after_keys {e : Emulator} {requests : List Request}
    (h : ∀ keys, .setKeys keys ∉ requests) : (e.after requests).keys = e.keys := by
  induction requests generalizing e with
  | nil => rfl
  | cons r requests ih =>
    have hrest : ∀ keys, .setKeys keys ∉ requests := fun keys hmem => h keys (.tail r hmem)
    rw [after, ih hrest, serve_keys]
    cases r with
    | setKeys keys => exact absurd List.mem_cons_self (h keys)
    | _ => rfl

/-- The key that is held is the one that was pressed last, if it was not released since. -/
theorem held_iff_since {e : Emulator} {requests : List Request} {k : Key}
    (hstart : e.machine.keypad.held = none) (hkeys : ∀ keys, .setKeys keys ∉ requests) :
    (e.after requests).machine.keypad.held = some k ↔ PressedSince e.keys requests k := by
  induction requests using List.reverseRecOn with
  | nil =>
    refine iff_of_false ?_ not_since_nil
    rw [after, hstart]
    nofun
  | append_singleton requests r ih =>
    have hrest : ∀ keys, .setKeys keys ∉ requests := fun keys hmem =>
      hkeys keys (List.mem_append_left _ hmem)
    rw [after_concat, held_serve_iff, after_keys hrest, ih hrest, PressedSince, PressedSince,
      since_concat]

/-- **The last press counts.** Whatever host keys go down and up, and whatever else is asked in
between, while the bindings stay the same: a key is held exactly if the last press was of it and no
release of it came after, and no key is held otherwise. A host key that is not bound to the key that
is held can go up without a change. -/
theorem last_press_counts {e : Emulator} {requests : List Request}
    (hstart : e.machine.keypad.held = none) (hkeys : ∀ keys, .setKeys keys ∉ requests) :
    (∀ k, (e.after requests).machine.keypad.held = some k ↔ PressedSince e.keys requests k) ∧
      ((e.after requests).machine.keypad.held = none ↔ ∀ k, ¬PressedSince e.keys requests k) ∧
      ∀ key, (∀ k, (e.keys.action key).key? = some k →
          (e.after requests).machine.keypad.held ≠ some k) →
        (e.after requests).keyUp key = e.after requests := by
  refine ⟨fun k => held_iff_since hstart hkeys, ?_, fun key hkey => ?_⟩
  · simp only [← held_iff_since hstart hkeys, Option.eq_none_iff_forall_ne_some]
  · refine keyUp_of_not_held ?_
    rwa [after_keys hkeys]

def five : Key :=
  (Key.ofCode? 5).get rfl

def six : Key :=
  (Key.ofCode? 6).get rfl

/-- Two host keys for one key, one for another and one for none. -/
def shared : KeyConfig :=
  .ofList [("A", .press five), ("B", .press five), ("C", .press six), ("N", .idle)]

/-- A press over another one, releases that do not matter and a host key that is not bound. -/
def fumble : List Request :=
  [.keyDown "C", .keyDown "A", .keyUp "C", .keyDown "N", .keyUp "N", .keyUp "X", .tick]

theorem last_press_counts_fumble :
    standard.machine.keypad.held = none ∧ (∀ keys, .setKeys keys ∉ fumble) ∧
      ({ standard with keys := shared }.after fumble).machine.keypad.held = some five ∧
      ({ standard with keys := shared }.after fumble).keyUp "C" =
        { standard with keys := shared }.after fumble := by
  have hkeys : ∀ keys, .setKeys keys ∉ fumble := by simp [fumble]
  obtain ⟨hheld, -, hup⟩ :=
    last_press_counts (e := { standard with keys := shared }) (rfl : _ = none) hkeys
  have hfive : PressedSince shared fumble five :=
    ⟨[.keyDown "C"], .keyDown "A", _, rfl, by decide +kernel, by decide +kernel⟩
  have hfound := (hheld five).2 hfive
  have hsix : (shared.action "C").key? = some six := by decide +kernel
  refine ⟨rfl, hkeys, hfound, hup "C" fun k hk => ?_⟩
  obtain rfl : six = k := Option.some.inj (hsix.symm.trans hk)
  rw [hfound]
  decide

end Emulator

end Chip8
