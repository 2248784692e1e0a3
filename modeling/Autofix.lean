import Autofix.Apply.Changes
import Autofix.Apply.Fault
import Autofix.Batch.Coordinator
import Autofix.Cli.Report
import Autofix.Cli.Run
import Autofix.Cli.Usage
import Autofix.Config.File
import Autofix.Fixer.Registry
import Autofix.Main
import Autofix.Outline.Parser
import Autofix.Proofs.Apply.Landing
import Autofix.Proofs.Batch.Rehearsal
import Autofix.Snapshot.Store
import Autofix.Validation
import Autofix.Proofs.Edit.Splice
import Autofix.Proofs.Batch.Outcomes
import Autofix.Proofs.Edit.Order
import Autofix.Proofs.Apply.Next
import Autofix.Proofs.Apply.Descent
import Autofix.Proofs.Apply.Again
import Autofix.Proofs.Outline.Ecma.Reader
import Autofix.Proofs.Outline.Parser
import Autofix.Proofs.Batch.History
import Autofix.Proofs.Batch.Containment
import Autofix.Proofs.Disk.Spelling
import Autofix.Proofs.Snapshot.Agreement
import Autofix.Proofs.Apply.Spelling
import Autofix.Proofs.Batch.Spelling
import Autofix.Proofs.Batch.Generation
import Autofix.Proofs.Fixer.Registry
import Autofix.Proofs.Json.Records
import Autofix.Proofs.Snapshot.AppendOnly
import Autofix.Proofs.Fixer.LineMap
import Autofix.Proofs.Fixer.Duplicates
import Autofix.Proofs.Fixer.Unused
import Autofix.Proofs.Fixer.Reassignment
import Autofix.Proofs.Fixer.Protection
import Autofix.Proofs.Batch.Acceptance
import Autofix.Proofs.Snapshot.Interruption
import Autofix.Proofs.Batch.Count
import Autofix.Proofs.Snapshot.Listing
import Autofix.Proofs.Cli.Categories
import Autofix.Proofs.Cli.Report
import Autofix.Proofs.Fixer.Documentation
import Autofix.Proofs.Fixer.LineEdits
import Autofix.Proofs.Stamp
import Autofix.Proofs.Text.LineBounds
