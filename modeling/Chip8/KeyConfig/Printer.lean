import Chip8.KeyConfig

/-!
# Writing key configurations

A first line, one line for each binding, and a last line. Names are written as they are.
-/

namespace Chip8.KeyConfig

def header : List Char :=
  ['c', 'o', 'n', 'f', 'i', 'g', '{']

def footer : List Char :=
  ['}']

def bindingLine (b : Binding) : List Char :=
  b.1.toList ++ [' ', '=', ' '] ++ b.2.text.toList

/-- The characters of a written key configuration, without a newline at the end. -/
def print (c : KeyConfig) : List Char :=
  header ++ '\n' :: c.bindings.flatMap (fun b => bindingLine b ++ ['\n']) ++ footer

def text (c : KeyConfig) : String :=
  String.ofList c.print

end Chip8.KeyConfig
