import Chip8.Numeral

/-!
# Pieces of a command line

A command line is cut into flags, options with their values and names of program files.

* **A long name** begins with two hyphens or more and ends at an equals sign. What follows
  the equals signs is the value of an option; a flag does not look at it.
* **Letters** after a single hyphen are flags.
* **The next argument** is the value of an option that has no equals sign, unless it is an
  option itself. A single hyphen is no option.
* **After two hyphens** that stand alone every argument is a name.

An argument that has no meaning here, and a request to show help or the version, end the
reading where they stand.
-/

namespace Chip8.CommandLine

inductive UsageError where
  /-- An argument is not known or not expected here. -/
  | unexpected (argument : String)
  | repeated (option : String)
  | noValue (option : String)
  | noProgram
deriving DecidableEq

namespace UsageError

def message : UsageError → String
  | unexpected argument => "unexpected argument '" ++ argument ++ "'"
  | repeated option => "option '" ++ option ++ "' is given twice"
  | noValue option => "option '" ++ option ++ "' needs a value"
  | noProgram => "no program file is named"

end UsageError

/-- Why no session follows from the arguments. -/
inductive EarlyExit where
  | refused (cause : UsageError)
  | help
  | version
deriving DecidableEq

namespace EarlyExit

/-- How the program is called. -/
def usage : String :=
  "usage: chip8vm [-v] [--speed FACTOR] [--seconds SECS] [--keys FILE] [--load-state FILE]"
    ++ " [--save-state FILE] [--press KEY] [--dump-screen] FILE\n"

def status : EarlyExit → Nat
  | refused _ => 1
  | help => 0
  | version => 0

def output : EarlyExit → String
  | refused _ => ""
  | help => usage
  | version => "chip8vm 0.1.0\n"

def errorOutput : EarlyExit → String
  | refused e => "error: " ++ e.message ++ "\n\n" ++ usage
  | help => ""
  | version => ""

end EarlyExit

/-! ## Names -/

/-- The options that take a value. -/
inductive Valued where
  | speed
  | seconds
  | keys
  | loadState
  | saveState
  | press
deriving DecidableEq

namespace Valued

def name : Valued → String
  | speed => "speed"
  | seconds => "seconds"
  | keys => "keys"
  | loadState => "load-state"
  | saveState => "save-state"
  | press => "press"

def ofName? (text : String) : Option Valued :=
  [speed, seconds, keys, loadState, saveState, press].find? (·.name = text)

end Valued

/-- The flags, which take no value. -/
inductive Flag where
  | verbose
  | dumpScreen
  | help
  | version
deriving DecidableEq

namespace Flag

def name : Flag → String
  | verbose => "verbose"
  | dumpScreen => "dump-screen"
  | help => "help"
  | version => "version"

def ofName? (text : String) : Option Flag :=
  [verbose, dumpScreen, help, version].find? (·.name = text)

def ofLetter? : Char → Option Flag
  | 'v' => some verbose
  | 'h' => some help
  | 'V' => some version
  | _ => none

end Flag

/-! ## Pieces -/

inductive Piece where
  /-- One more level of the log. -/
  | verbose
  /-- The screen is to be shown. -/
  | dumpScreen
  /-- An option and the value that follows it. -/
  | option (which : Valued) (value : Option String)
  | program (name : String)
deriving DecidableEq

/-- What reading pieces gives. -/
abbrev Pieces := Except EarlyExit (List Piece)

namespace Piece

/-- An argument without a meaning. -/
def unexpected {α : Type} (argument : String) : Except EarlyExit α :=
  .error (.refused (.unexpected argument))

/-- The piece of a flag. -/
def ofFlag : Flag → Except EarlyExit Piece
  | .verbose => .ok verbose
  | .dumpScreen => .ok dumpScreen
  | .help => .error .help
  | .version => .error .version

/-- The piece of a flag that was looked up. -/
def ofFlag? (argument : String) : Option Flag → Except EarlyExit Piece
  | some flag => ofFlag flag
  | none => unexpected argument

/-- The piece of a name, if no program file is named yet. -/
def ofName (named : Bool) (name : String) : Except EarlyExit Piece :=
  if named then unexpected name else .ok (program name)

/-- Whether an argument is an option or a flag. -/
def isOption (argument : String) : Bool :=
  argument.toList.head? == some '-' && argument != "-"

/-- Whether an argument begins with two hyphens. -/
def isLong (argument : String) : Bool :=
  argument.toList.take 2 == ['-', '-']

/-- The name and the value in a long argument. -/
def splitLong (argument : String) : String × Option String :=
  let body := argument.toList.dropWhile (· == '-')
  let name := String.ofList (body.takeWhile (· != '='))
  match body.dropWhile (· != '=') with
  | [] => (name, none)
  | rest => (name, some (String.ofList (rest.dropWhile (· == '='))))

/-- The flags that the letters of an argument stand for. -/
def ofLetters (argument : String) : Pieces :=
  (argument.toList.drop 1).mapM fun c => ofFlag? argument (Flag.ofLetter? c)

/-- Reads arguments that are all names. -/
def ofNames (named : Bool) : List String → Pieces
  | [] => .ok []
  | name :: rest => do
    let piece ← ofName named name
    return piece :: (← ofNames true rest)

/-- Reads arguments, given whether a program file was named before them. -/
def ofArguments (named : Bool) : List String → Pieces
  | [] => .ok []
  | argument :: rest =>
    if argument = "--" then ofNames named rest
    else if !isOption argument then do
      let piece ← ofName named argument
      return piece :: (← ofArguments true rest)
    else if !isLong argument then do
      let flags ← ofLetters argument
      return flags ++ (← ofArguments named rest)
    else
      let (name, value) := splitLong argument
      match Valued.ofName? name, value with
      | none, _ => do
        let flag ← ofFlag? argument (Flag.ofName? name)
        return flag :: (← ofArguments named rest)
      | some which, some value => do
        return option which (some value) :: (← ofArguments named rest)
      | some which, none =>
        match rest with
        | [] => .ok [option which none]
        | next :: after =>
          if isOption next then do
            return option which none :: (← ofArguments named (next :: after))
          else do
            return option which (some next) :: (← ofArguments named after)
termination_by arguments => arguments.length

end Piece

end Chip8.CommandLine
