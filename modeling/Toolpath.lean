import Toolpath.Composer
import Toolpath.Main
import Toolpath.Proofs.Decimal.Content
import Toolpath.Proofs.Decimal.Nearest
import Toolpath.Proofs.Decimal.Plain
import Toolpath.Proofs.Decimal.Reading
import Toolpath.Proofs.Decimal.Shortest
import Toolpath.Proofs.Decimal.Layout
import Toolpath.Proofs.Decimal.Nearness
import Toolpath.Proofs.Line.Scanning
import Toolpath.Proofs.Line.RoundTrip
import Toolpath.Proofs.Text.Terminated
import Toolpath.Proofs.Line.Layout
import Toolpath.Proofs.Line.Settled
import Toolpath.Proofs.Line.Rereading
import Toolpath.Proofs.Machine.Execution
import Toolpath.Proofs.Shell.JsonLibrary
import Toolpath.Proofs.Machine.Document
import Toolpath.Proofs.Reduce.Acceptance
import Toolpath.Proofs.Machine.Reference
import Toolpath.Proofs.Reduce.Redundancy
import Toolpath.Proofs.Reduce.Stability
import Toolpath.Proofs.Reduce.Extrusion
import Toolpath.Proofs.Pass.Survivors
import Toolpath.Proofs.Pass.Chaining
import Toolpath.Proofs.Pass.Motion
import Toolpath.Proofs.Pass.Replay
import Toolpath.Proofs.Pass.FixedPoint
import Toolpath.Proofs.Text.Encoding
import Toolpath.Proofs.Pass.Agreement
import Toolpath.Proofs.Pass.Finiteness
import Toolpath.Proofs.Job.Files
import Toolpath.Proofs.Shell.Staging
import Toolpath.Proofs.Pass.Increments
import Toolpath.Proofs.Pass.Endings
import Toolpath.Proofs.Pass.Independence
import Toolpath.Proofs.Text.Remarks
import Toolpath.Proofs.Pass.Comments
import Toolpath.Proofs.Pass.Writing
import Toolpath.Proofs.Pass.Composing
import Toolpath.Proofs.Decimal.Written
import Toolpath.Proofs.Decimal.Edits
import Toolpath.Proofs.Decimal.Length
import Toolpath.Proofs.Line.Length
import Toolpath.Proofs.Pass.Shrinking
import Toolpath.Proofs.Pass.Injection
import Toolpath.Proofs.Reduce.Axes
import Toolpath.Proofs.Reduce.Frame
import Toolpath.Proofs.Pass.Refusals
import Toolpath.Proofs.Line.Language
import Toolpath.Proofs.Line.Arrangement
import Toolpath.Proofs.Line.Partition
import Toolpath.Proofs.Pass.Truncation
import Toolpath.Proofs.Pass.Places
import Toolpath.Proofs.Job.Transaction
import Toolpath.Proofs.Job.Precedence
