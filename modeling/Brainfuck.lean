import Brainfuck.Main
import Brainfuck.Meaning
import Brainfuck.Proofs.Brackets.Matching
import Brainfuck.Proofs.Execution.Turn
import Brainfuck.Proofs.Meaning.Nesting
import Brainfuck.StepTable.Reading
import Brainfuck.Proofs.Meaning.Agreement
import Brainfuck.Proofs.Execution.Lockstep
import Brainfuck.Proofs.Execution.StepLimit
import Brainfuck.Proofs.Execution.Views
import Brainfuck.Sink.Room
import Brainfuck.Sink.Piecemeal
import Brainfuck.Proofs.Execution.FullSink
import Brainfuck.Proofs.Request.LastLine
import Brainfuck.Proofs.Execution.Reuse
import Brainfuck.Proofs.Safety.Bounds
import Brainfuck.Proofs.Dialogue.Script
import Brainfuck.Proofs.Execution.Sequence
import Brainfuck.Proofs.Dialogue.Completion
import Brainfuck.Proofs.Dialogue.Conversation
import Brainfuck.Proofs.Dialogue.Gaps
import Brainfuck.Proofs.Limits.File
import Brainfuck.Proofs.Limits.Sources
import Brainfuck.Proofs.Limits.Section
import Brainfuck.Proofs.Limits.Entry
import Brainfuck.Proofs.Request.Buffering
import Brainfuck.Proofs.Request.Mirrored
import Brainfuck.Proofs.Report.Pointing
import Brainfuck.Proofs.Report.Layout
import Brainfuck.Proofs.Session.Diagnosis
import Brainfuck.Proofs.Session.Streams
import Brainfuck.Proofs.Execution.Trace
import Brainfuck.Proofs.Execution.Input
import Brainfuck.Proofs.Execution.Tape
import Brainfuck.Proofs.Execution.Unreached
import Brainfuck.Proofs.Execution.Blame
import Brainfuck.Proofs.StepTable.Rows
import Brainfuck.Proofs.Execution.Straight
import Brainfuck.Proofs.Limits.Candidates
import Brainfuck.Proofs.Limits.Headers
import Brainfuck.Proofs.Request.Checks
import Brainfuck.Proofs.Limits.Spelling
import Brainfuck.Proofs.Report.Wrapping
