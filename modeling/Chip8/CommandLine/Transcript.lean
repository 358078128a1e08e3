import Chip8.CommandLine.Session
import Chip8.Emulator.Schedule

/-!
# Sessions in a tree of files

A host without a world outside: files come from a tree, the log and the output are kept, and
the time of a run passes at once.
-/

namespace Chip8.CommandLine

/-- What a session has read and written. The latest lines come first. -/
structure Transcript where
  files : FileTree
  log : List LogLine := []
  output : List String := []

namespace Transcript

/-- The host that keeps a transcript. -/
def host : Host (StateM Transcript) where
  openFile path := return (← get).files.openFile path
  writeFile path text := do
    let t ← get
    match t.files.write path text.toUTF8 with
    | .ok files =>
      set { t with files := files }
      pure (.ok ())
    | .error e => pure (.error e)
  drive e time := pure (e.runFor time)
  log line := modify fun t => { t with log := line :: t.log }
  print text := modify fun t => { t with output := text :: t.output }

def logText (t : Transcript) : String :=
  String.join (t.log.reverse.map fun line => line.render ++ "\n")

def outputText (t : Transcript) : String :=
  String.join t.output.reverse

/-- The exit status and the transcript of a session. -/
def ofSession (files : FileTree) (a : Arguments) (generator : Generator) : Nat × Transcript :=
  (host.session a generator).run { files := files }

end Transcript

end Chip8.CommandLine
