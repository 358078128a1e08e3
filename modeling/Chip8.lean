import Chip8.CallStack
import Chip8.Clock
import Chip8.Generator
import Chip8.Instruction.Code
import Chip8.Instruction.Mnemonic
import Chip8.Key
import Chip8.Memory
import Chip8.Registers
import Chip8.Screen
import Chip8.Timers
import Chip8.Machine.Dump
import Chip8.Machine.Run
import Chip8.SaveState.Reader
import Chip8.Text.Blank
import Chip8.KeyConfig.Reader
import Chip8.Decimal.Reader
import Chip8.Decimal.Shortest
import Chip8.Emulator.Batch
import Chip8.Emulator.File
import Chip8.Emulator.Schedule
import Chip8.KeyConfig.File
import Chip8.CommandLine.Transcript
import Chip8.Main
import Chip8.Proofs.Text.Lines
import Chip8.Proofs.Text.Trim
import Chip8.Proofs.Except
import Chip8.Proofs.SaveState.Entries
import Chip8.Proofs.SaveState.Grammar
import Chip8.Proofs.SaveState.Sections
import Chip8.Proofs.SaveState.Defects
import Chip8.Proofs.SaveState.Acceptance
import Chip8.Proofs.SaveState.Refusal
import Chip8.Proofs.Timers
import Chip8.Proofs.History
import Chip8.Proofs.Text.Clean
import Chip8.Proofs.Numeral
import Chip8.Proofs.Instruction.Mnemonic
import Chip8.Proofs.SaveState.RoundTrip
import Chip8.Proofs.Generator
import Chip8.Proofs.Machine.Step
import Chip8.Proofs.Machine.Event
import Chip8.Proofs.Machine.Reachable
import Chip8.Proofs.SaveState.Restore
import Chip8.Proofs.Memory
import Chip8.Proofs.Instruction.Forms
import Chip8.Proofs.Machine.Failure
import Chip8.Proofs.Overlay
import Chip8.Proofs.Machine.Remains
import Chip8.Proofs.Machine.Nesting
import Chip8.Proofs.SaveState.Normal
import Chip8.Proofs.Screen
import Chip8.Proofs.Registers
import Chip8.Proofs.Sprite
import Chip8.Proofs.Machine.Redraw
import Chip8.Proofs.Machine.Footprint
import Chip8.Proofs.SaveState.Installation
import Chip8.Proofs.Machine.Steady
import Chip8.Proofs.Machine.ProgramCounter
import Chip8.Proofs.Machine.Effects
import Chip8.Proofs.Binary64
import Chip8.Proofs.Emulator.Batch
import Chip8.Proofs.Emulator.Carry
import Chip8.Proofs.Emulator.Request
import Chip8.Proofs.Emulator.Stopping
import Chip8.Proofs.Emulator.WellFormed
import Chip8.Proofs.Machine.Interleaving
import Chip8.Proofs.Machine.Performing
import Chip8.Proofs.Machine.Arithmetic
import Chip8.Proofs.Machine.Transfer
import Chip8.Proofs.Machine.KeyWait
import Chip8.Proofs.Machine.Counter
import Chip8.Proofs.KeyConfig.Entry
import Chip8.Proofs.KeyConfig.Bindings
import Chip8.Proofs.KeyConfig.Reading
import Chip8.Proofs.KeyConfig.RoundTrip
import Chip8.Proofs.Emulator.Twins
import Chip8.Proofs.Emulator.Program
import Chip8.Proofs.Emulator.Keys
import Chip8.Proofs.Clock
import Chip8.Proofs.Emulator.Clock
import Chip8.Proofs.Instruction.Coding
import Chip8.Proofs.Instruction.Assembly
import Chip8.Proofs.Machine.Trace
import Chip8.Proofs.Screen.Views
import Chip8.Proofs.Text.OneLine
import Chip8.Proofs.Messages
