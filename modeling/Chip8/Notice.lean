import Chip8.Timers

/-!
# Notices

What a running machine tells its host: lines for the log, and when a tone starts or stops.
A silent machine writes its tones to the log instead.
-/

namespace Chip8

/-- How much a log line matters. -/
inductive Level where
  | error
  | warn
  | info
  | debug
  | trace
deriving DecidableEq

namespace Level

/-- The rank of a level; the lowest matters most. -/
def rank : Level → Nat
  | error => 0
  | warn => 1
  | info => 2
  | debug => 3
  | trace => 4

/-- The name of a level. -/
def name : Level → String
  | error => "ERROR"
  | warn => "WARN"
  | info => "INFO"
  | debug => "DEBUG"
  | trace => "TRACE"

end Level

/-- A line for the log. -/
structure LogLine where
  level : Level
  text : String
deriving DecidableEq

namespace LogLine

/-- The line with its level in front. -/
def render (l : LogLine) : String :=
  l.level.name ++ ": " ++ l.text

end LogLine

/-- Something that the host is told. -/
inductive Notice where
  /-- A line for the log. -/
  | log (line : LogLine)
  /-- A tone starts. -/
  | toneOn
  /-- A tone stops. -/
  | toneOff
deriving DecidableEq

namespace Notice

/-- A log line of a given level. -/
def line (level : Level) (text : String) : Notice :=
  log ⟨level, text⟩

/-- The log line of a notice, if it is one. -/
def logLine? : Notice → Option LogLine
  | log line => some line
  | _ => none

end Notice

/-- Where tones go. -/
inductive Audio where
  /-- The host plays them. -/
  | host
  /-- The log tells of them. -/
  | silent
deriving DecidableEq

namespace Audio

/-- What the host is told of a signal of the timers. The delay counter makes no sound. -/
def notices (audio : Audio) (signal : Signal) : List Notice :=
  match signal, audio with
  | .soundSet, .host => [.toneOn]
  | .soundIdle, .host => [.toneOff]
  | .soundSet, .silent => [.line .debug "tone on"]
  | .soundIdle, .silent => [.line .trace "tone off"]
  | .delayIdle, _ => []

end Audio

end Chip8
