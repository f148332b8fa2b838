import TwoStage.Text.Blank
import TwoStage.Text.Lines
import TwoStage.Text.Search
import TwoStage.Text.Case
import TwoStage.Text.Digit
import TwoStage.Text.Literal
import TwoStage.Text.Utf8
import TwoStage.Number.Shortest
import TwoStage.Bindings
import TwoStage.Json.Reader
import TwoStage.Json.Printer
import TwoStage.Json.Shown
import TwoStage.Path
import TwoStage.Spec.Read
import TwoStage.Spec.Spec
import TwoStage.Report
import TwoStage.Config
import TwoStage.Dockerfile.Render
import TwoStage.Failure
import TwoStage.Log
import TwoStage.Digest.Sha256
import TwoStage.Digest.Tree
import TwoStage.Digest.Comparison
import TwoStage.FileTree.Files
import TwoStage.Engine.Client
import TwoStage.Pipeline.Run
import TwoStage.ConfigFile
import TwoStage.Verify
import TwoStage.Smoke
import TwoStage.Cli.Perform
import TwoStage.Proofs.Spec.Accepted
import TwoStage.Proofs.Pipeline.CallOrder
import TwoStage.Proofs.Pipeline.StateHistory
import TwoStage.Proofs.Pipeline.Promise
import TwoStage.Proofs.Pipeline.Leftovers
import TwoStage.Proofs.Dockerfile.Lines
import TwoStage.Proofs.Dockerfile.Login
import TwoStage.Proofs.Dockerfile.Evaluation
import TwoStage.Proofs.Pipeline.Record
import TwoStage.Proofs.Spec.Language
import TwoStage.Proofs.Spec.Roundtrip
import TwoStage.Proofs.Spec.Overlay
import TwoStage.Proofs.Dockerfile.Directives
import TwoStage.Proofs.Pipeline.Declared
import TwoStage.Proofs.FileTree.Fitting
import TwoStage.Proofs.Pipeline.SourceOrder
import TwoStage.Proofs.FileTree.Extension
import TwoStage.Proofs.Pipeline.Delivery
import TwoStage.Proofs.Failure
import TwoStage.Proofs.Dockerfile.Failures
import TwoStage.Proofs.Verify
import TwoStage.Proofs.ConfigFile
import TwoStage.Proofs.Pipeline.Origin
import TwoStage.Proofs.Cli.Freshness
import TwoStage.Proofs.FileTree.Contents
import TwoStage.Proofs.Pipeline.Ignored
import TwoStage.Proofs.Cli.LockFiles
import TwoStage.Proofs.Engine.Steady
import TwoStage.Proofs.Cli.Verdicts
import TwoStage.Proofs.Failure.Noise
import TwoStage.Proofs.Failure.Tail
import TwoStage.Proofs.Pipeline.Repository
import TwoStage.Proofs.Cli.Traces
import TwoStage.Proofs.Pipeline.MissingSources
import TwoStage.Proofs.Digest.Spelling
import TwoStage.Proofs.Verify.UserNumber
import TwoStage.Proofs.Cli.PassThrough
import TwoStage.Proofs.Dockerfile.Quoting
import TwoStage.Proofs.Pipeline.SourcePlaces
import TwoStage.Logging
import TwoStage.Proofs.Logging
import TwoStage.Proofs.ConfigFile.Scaffold
