import RoverPilot.Text.Blank
import RoverPilot.Text.Letters
import RoverPilot.Text.Numeral
import RoverPilot.Text.Range
import RoverPilot.Text.Quoted
import RoverPilot.Text.Utf8
import RoverPilot.Batch.Id
import RoverPilot.Batch.Result
import RoverPilot.Batch.Message
import RoverPilot.Batch.Lifecycle
import RoverPilot.Command
import RoverPilot.Stream.Line
import RoverPilot.Stream.Assembler
import RoverPilot.Stream.Parser
import RoverPilot.Stream.Intake
import RoverPilot.Json.Scan
import RoverPilot.Json.Typed
import RoverPilot.Settings.Basic
import RoverPilot.Settings.Load
import RoverPilot.Clock
import RoverPilot.Handler.Ending
import RoverPilot.Handler.Machinery
import RoverPilot.Robot.Body
import RoverPilot.Robot.Voice
import RoverPilot.Robot.Move
import RoverPilot.Robot.Script
import RoverPilot.Robot.Handler
import RoverPilot.Robot.Trial
import RoverPilot.Executor.Channel
import RoverPilot.Executor.World
import RoverPilot.Executor.Control
import RoverPilot.Executor.Worker
import RoverPilot.Executor.Session
import RoverPilot.Robot.Session
import RoverPilot.CommandLine
import RoverPilot.Main
import RoverPilot.Proofs.Executor.Run
import RoverPilot.Proofs.Executor.History
import RoverPilot.Proofs.Executor.Ledger
import RoverPilot.Proofs.Executor.Activation
import RoverPilot.Proofs.Executor.Cancellation
import RoverPilot.Proofs.Executor.Fate
import RoverPilot.Proofs.Executor.Separation
import RoverPilot.Proofs.Executor.Stop
import RoverPilot.Proofs.Executor.Intake
import RoverPilot.Proofs.Executor.Preemption
import RoverPilot.Proofs.Executor.Finishing
import RoverPilot.Proofs.Executor.Touch
import RoverPilot.Proofs.Robot.Life
import RoverPilot.Proofs.Robot.Motors
import RoverPilot.Proofs.Robot.HardStop
import RoverPilot.Proofs.Executor.Wake
import RoverPilot.Proofs.Stream.Authority
import RoverPilot.Proofs.Executor.Hearing
import RoverPilot.Proofs.Executor.Provenance
import RoverPilot.Proofs.Executor.Progress
import RoverPilot.Proofs.Robot.Ending
import RoverPilot.Proofs.Executor.TurnEnd
import RoverPilot.Proofs.Executor.Alike
import RoverPilot.Proofs.Executor.Refusal
import RoverPilot.Proofs.Stream.Surface
import RoverPilot.Proofs.Stream.Grammar
import RoverPilot.Proofs.Stream.Reads
import RoverPilot.Proofs.Text.Utf8
import RoverPilot.Proofs.Text.Blank
import RoverPilot.Proofs.Text.Numeral
import RoverPilot.Proofs.Text.Encoding
import RoverPilot.Proofs.Executor.Drain
import RoverPilot.Proofs.Executor.Shutdown
import RoverPilot.Proofs.Batch.Fields
import RoverPilot.Proofs.Batch.Message
import RoverPilot.Proofs.Batch.Reading
import RoverPilot.Proofs.Stream.Recognition
import RoverPilot.Proofs.Executor.Coherence
import RoverPilot.Proofs.Executor.Prompt
import RoverPilot.Proofs.Executor.Delivery
import RoverPilot.Proofs.Robot.Envelope
import RoverPilot.Proofs.Executor.Owing
import RoverPilot.Proofs.Robot.Airing
import RoverPilot.Proofs.Robot.Speaking
import RoverPilot.Proofs.Robot.Saying
import RoverPilot.Proofs.Robot.Speech
import RoverPilot.Proofs.Robot.Stir
import RoverPilot.Proofs.Robot.Settling
import RoverPilot.Proofs.Robot.Timekeeping
import RoverPilot.Proofs.Batch.Closing
import RoverPilot.Proofs.Executor.Completion
import RoverPilot.Proofs.Robot.Occurrence
import RoverPilot.Proofs.Robot.Overrun
import RoverPilot.Proofs.Robot.Holding
import RoverPilot.Proofs.Robot.Admission
import RoverPilot.Proofs.Stream.Assembly
