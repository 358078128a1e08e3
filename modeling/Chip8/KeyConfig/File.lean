import Chip8.FileTree
import Chip8.KeyConfig.Reader
import Chip8.Notice

/-!
# Key configuration files

A key configuration is loaded from a file if the file holds one; otherwise the standard
layout stands in for it. The log tells which of the two happened and which lines were
skipped.
-/

namespace Chip8.KeyConfig

/-- Where the key configuration lies unless another file is named. -/
def defaultPath : String := "config/controls.dat"

/-! ## Loading -/

/-- The log line of a skipped line. -/
def skippedLine (s : Skipped) : LogLine :=
  ⟨.debug, "skipping key binding " ++ Text.quoted s.line ++ ": " ++ s.cause.message⟩

/-- The standard layout, and a warning that it is used. -/
def fallback (path : String) (messages : List String) : KeyConfig × List LogLine :=
  (standard, [⟨.warn,
    path ++ ": " ++ ": ".intercalate messages ++ "; using the standard layout"⟩])

/-- The configuration that a file holds, given what reading it gave, and the log lines. -/
def load (path : String) (contents : Except FileError String) :
    KeyConfig × List LogLine :=
  match contents with
  | .error e => fallback path ["could not read key configuration", e.message]
  | .ok text =>
    match ofText text with
    | .error e => fallback path [e.message]
    | .ok reading =>
      (reading.config, reading.skipped.map skippedLine
        ++ [⟨.info, "loaded key configuration from " ++ path⟩])

/-! ## Saving -/

/-- Why a configuration could not be saved. -/
inductive SaveError where
  | create (folder : String) (cause : FileError)
  | write (path : String) (cause : FileError)
deriving DecidableEq

namespace SaveError

/-- The texts of the error and of its cause. -/
def messages : SaveError → List String
  | create folder e => ["could not create " ++ folder, e.message]
  | write path e => ["could not write " ++ path, e.message]

end SaveError

/-- Makes the folder that a path needs. -/
def makeParent (tree : FileTree) (path : String) : FileTree × Except SaveError Unit :=
  let folder := FileTree.parent path
  match tree.makeFolders folder with
  | (tree, none) => (tree, .ok ())
  | (tree, some e) => (tree, .error (.create folder e))

/-- Writes a configuration to a file, in a folder that is made if it is missing. -/
def save (c : KeyConfig) (tree : FileTree) (path : String) :
    FileTree × Except SaveError Unit :=
  match makeParent tree path with
  | (tree, .error e) => (tree, .error e)
  | (tree, .ok ()) =>
    match tree.write path c.text.toUTF8 with
    | .ok tree => (tree, .ok ())
    | .error e => (tree, .error (.write path e))

end Chip8.KeyConfig
