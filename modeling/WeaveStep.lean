import WeaveStep.Main
import WeaveStep.Proofs.CommandLine.Checks
import WeaveStep.Proofs.CommandLine.ExitCode
import WeaveStep.Proofs.CommandLine.Inputs
import WeaveStep.Proofs.CommandLine.Archive
import WeaveStep.Proofs.CommandLine.Exits
import WeaveStep.Proofs.Weave.Interleaving
import WeaveStep.Proofs.Weave.Outcome
import WeaveStep.Proofs.Console.Tagged
import WeaveStep.Proofs.Alike
import WeaveStep.Proofs.Files.Copies
import WeaveStep.Proofs.Files.Opening
import WeaveStep.Proofs.Files.Rooted
import WeaveStep.Proofs.Text.Split
import WeaveStep.Proofs.Weave.Frame
import WeaveStep.Proofs.Weave.FreshStart
import WeaveStep.Proofs.Weave.LaunchCondition
import WeaveStep.Proofs.Weave.Overlap
import WeaveStep.Proofs.Weave.Collisions
import WeaveStep.Proofs.Weave.Entries
import WeaveStep.Proofs.Weave.BootClasspath
import WeaveStep.Proofs.Weave.Placement
import WeaveStep.Proofs.Weave.RootContents
import WeaveStep.Proofs.Weave.Clearing
import WeaveStep.Proofs.Files.OneFile
import WeaveStep.Proofs.Files.Unfolding
import WeaveStep.Proofs.CommandLine.Deletion
import WeaveStep.Proofs.Fetch.DeclaredLength
import WeaveStep.Proofs.Fetch.Retries
import WeaveStep.Proofs.Text.Utf8
import WeaveStep.Proofs.Weave.Answers
import WeaveStep.Proofs.Weave.Parsing
import WeaveStep.Proofs.Weave.Discovery
import WeaveStep.Proofs.Weave.Failures
import WeaveStep.Proofs.Settings.Load
import WeaveStep.Proofs.Ini.Written
import WeaveStep.Proofs.Ini.Reference
import WeaveStep.Proofs.Settings.Written
import WeaveStep.Proofs.Fetch.Checksums
import WeaveStep.Proofs.Weave.Exclusion
import WeaveStep.Proofs.Fetch.Pieces
