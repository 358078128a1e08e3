import Chip8.Key
import Chip8.Text.Mismatch

/-!
# Key configurations

A key configuration binds keys of the host, known by name, to what they do on the keypad:
press a key or nothing. Each host key has at most one binding, and the bindings are kept in
the order of their names, so two configurations are equal if they bind the same keys to the
same actions.
-/

namespace Chip8

/-- The name of a key of the host. -/
abbrev HostKey := String

/-- What a host key does when it goes down. -/
inductive KeyAction where
  | press (key : Key)
  | idle
deriving DecidableEq

namespace KeyAction

/-- The key of the keypad that the action is about. -/
def key? : KeyAction → Option Key
  | press k => some k
  | idle => none

/-- Applies the action to the keypad. -/
def trigger (action : KeyAction) (pad : Keypad) : Keypad :=
  match action with
  | press k => pad.press k
  | idle => pad

/-- The text of an action: the name of the key, or `NOP`. -/
def text : KeyAction → String
  | press k => k.name
  | idle => "NOP"

/-- Reads the text of an action. -/
def read (text : List Char) : Except UnknownKey KeyAction :=
  if text = ['N', 'O', 'P'] then .ok .idle
  else match Key.ofName? text with
    | some k => .ok (.press k)
    | none => .error ⟨text⟩

end KeyAction

/-- A binding of a host key. -/
abbrev Binding := HostKey × KeyAction

/-- Bindings of host keys, in the order of their names. -/
structure KeyConfig where
  bindings : List Binding
  sorted : bindings.Pairwise fun a b => a.1 < b.1

namespace KeyConfig

/-! ## Bindings -/

/-- Puts a binding in its place, instead of one with the same host key. -/
def place (key : HostKey) (action : KeyAction) : List Binding → List Binding
  | [] => [(key, action)]
  | b :: rest =>
    if key < b.1 then (key, action) :: b :: rest
    else if key = b.1 then (key, action) :: rest
    else b :: place key action rest

theorem mem_place {key : HostKey} {action : KeyAction} {b : Binding} {bs : List Binding}
    (h : b ∈ place key action bs) : b = (key, action) ∨ b ∈ bs := by
  induction bs with
  | nil => simp_all [place]
  | cons c rest ih =>
    simp only [place] at h
    split at h
    · simpa using h
    · split at h
      · rcases List.mem_cons.mp h with h | h
        · exact .inl h
        · exact .inr (List.mem_cons_of_mem c h)
      · rcases List.mem_cons.mp h with h | h
        · exact .inr (h ▸ List.mem_cons_self)
        · exact (ih h).imp id (List.mem_cons_of_mem c)

theorem sorted_place {key : HostKey} {action : KeyAction} {bs : List Binding}
    (h : bs.Pairwise fun a b => a.1 < b.1) :
    (place key action bs).Pairwise fun a b => a.1 < b.1 := by
  induction bs with
  | nil => exact List.pairwise_singleton _ _
  | cons c rest ih =>
    obtain ⟨hc, hrest⟩ := List.pairwise_cons.mp h
    simp only [place]
    split
    · rename_i hlt
      refine List.pairwise_cons.mpr ⟨fun b hb => ?_, h⟩
      rcases List.mem_cons.mp hb with rfl | hb
      · exact hlt
      · exact String.lt_trans hlt (hc b hb)
    · rename_i hge
      split
      · rename_i heq
        exact List.pairwise_cons.mpr ⟨fun b hb => heq ▸ hc b hb, hrest⟩
      · rename_i hne
        refine List.pairwise_cons.mpr ⟨fun b hb => ?_, ih hrest⟩
        rcases mem_place hb with rfl | hb
        · exact Std.lt_of_le_of_ne hge (Ne.symm hne)
        · exact hc b hb

def empty : KeyConfig :=
  ⟨[], .nil⟩

/-- Binds a host key, instead of what it was bound to. -/
def bind (c : KeyConfig) (key : HostKey) (action : KeyAction) : KeyConfig :=
  ⟨place key action c.bindings, sorted_place c.sorted⟩

/-- The configuration with the given bindings; the last binding of a host key counts. -/
def ofList (bindings : List Binding) : KeyConfig :=
  bindings.foldl (fun c b => c.bind b.1 b.2) empty

/-- What a host key is bound to, if it is bound. -/
def get? (c : KeyConfig) (key : HostKey) : Option KeyAction :=
  c.bindings.lookup key

def contains (c : KeyConfig) (key : HostKey) : Bool :=
  (c.get? key).isSome

/-- What a host key does; one that is not bound does nothing. -/
def action (c : KeyConfig) (key : HostKey) : KeyAction :=
  (c.get? key).getD .idle

/-! ## The standard layout -/

/-- The layout that puts the keypad on the left side of a keyboard. -/
def standard : KeyConfig :=
  let names : List String :=
    ["X", "DIGIT1", "DIGIT2", "DIGIT3", "Q", "W", "E", "A", "S", "D", "Z", "C", "DIGIT4", "R",
      "F", "V"]
  ofList ((names.zip (List.finRange 16)).map fun (name, code) => (name, .press ⟨code⟩))

end KeyConfig

end Chip8
