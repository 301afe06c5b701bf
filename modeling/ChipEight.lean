import ChipEight.CommandLine.Arguments
import ChipEight.CommandLine.Command
import ChipEight.CommandLine.Program
import ChipEight.CommandLine.Report
import ChipEight.Console
import ChipEight.Files
import ChipEight.Image
import ChipEight.Instruction.Assembly
import ChipEight.Instruction.Basic
import ChipEight.Instruction.Encoding
import ChipEight.Instruction.Reader
import ChipEight.Instruction.Word
import ChipEight.Json
import ChipEight.Json.Reader
import ChipEight.Json.Token
import ChipEight.Machine.Basic
import ChipEight.Machine.CallStack
import ChipEight.Machine.Execution
import ChipEight.Machine.Fault
import ChipEight.Machine.Keypad
import ChipEight.Machine.Memory
import ChipEight.Machine.Registers
import ChipEight.Machine.Report
import ChipEight.Machine.Screen
import ChipEight.Main
import ChipEight.Player.Session
import ChipEight.Proofs.Arithmetic
import ChipEight.Proofs.AssemblyReading
import ChipEight.Proofs.BlockTransfer
import ChipEight.Proofs.Bookkeeping
import ChipEight.Proofs.Bounds
import ChipEight.Proofs.CallNesting
import ChipEight.Proofs.CheckedMachine
import ChipEight.Proofs.CheckedParts
import ChipEight.Proofs.ChosenSettings
import ChipEight.Proofs.CodePanel
import ChipEight.Proofs.ControlFlow
import ChipEight.Proofs.Cycle
import ChipEight.Proofs.DashboardBoxes
import ChipEight.Proofs.DebuggerRows
import ChipEight.Proofs.Decoding
import ChipEight.Proofs.Drawing
import ChipEight.Proofs.DrawingInstruction
import ChipEight.Proofs.Draws
import ChipEight.Proofs.EarlyStops
import ChipEight.Proofs.Encoding
import ChipEight.Proofs.FailedRestart
import ChipEight.Proofs.Faults
import ChipEight.Proofs.Footprint
import ChipEight.Proofs.Frames
import ChipEight.Proofs.HaltedSessions
import ChipEight.Proofs.Halting
import ChipEight.Proofs.HeldKeys
import ChipEight.Proofs.HexDump
import ChipEight.Proofs.IdleInputs
import ChipEight.Proofs.JsonGrammar
import ChipEight.Proofs.JsonPrinting
import ChipEight.Proofs.JsonReading
import ChipEight.Proofs.KeyWait
import ChipEight.Proofs.Layout
import ChipEight.Proofs.ListingLines
import ChipEight.Proofs.LosslessListing
import ChipEight.Proofs.MemoryAccess
import ChipEight.Proofs.Numerals
import ChipEight.Proofs.Pacing
import ChipEight.Proofs.Repaint
import ChipEight.Proofs.Requests
import ChipEight.Proofs.Restart
import ChipEight.Proofs.Runs
import ChipEight.Proofs.ScreenRenderings
import ChipEight.Proofs.Sessions
import ChipEight.Proofs.SettingsText
import ChipEight.Proofs.Steps
import ChipEight.Proofs.Timers
import ChipEight.Proofs.TracedRuns
import ChipEight.Proofs.Tracing
import ChipEight.Proofs.Windows
import ChipEight.Random.KeyStream
import ChipEight.Settings.Basic
import ChipEight.Settings.Reader
import ChipEight.Text
import ChipEight.View.Dashboard
import ChipEight.View.Layout
import ChipEight.View.Picture
import ChipEight.View.Tables
