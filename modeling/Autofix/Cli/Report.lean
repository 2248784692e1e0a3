import Autofix.Batch.Result
import Autofix.Cli.Format
import Autofix.Snapshot.Store

/-! Reports: what is printed about batches, backups and restored files. -/
namespace Autofix.Report

/-- The text on one line: blanks stand for tabs and line ends. -/
def singleLine (s : String) : String :=
  String.ofList (Text.replaceChars (fun c => c == '\t' || c == '\n' || c == '\r') ' ' s.toList)

/-- Columns with tabs between them, and a line end. -/
def row (columns : List String) : String := "\t".intercalate columns ++ "\n"

def fixRow (label : String) (message : Option String) (f : Fix) : String :=
  row <| [label, f.id, f.provider, "risk=" ++ f.risk.name, "confidence=" ++ f.confidence.fixed,
    ",".intercalate f.touchedFiles, singleLine f.description] ++ (message.map singleLine).toList

/-- The message of the first failure that is noted for a fix. -/
def messageFor? (errors : List FailureNote) (f : Fix) : Option String :=
  (errors.find? fun e => e.fixId == f.id).map FailureNote.message

def summaryRow (dryRun : Bool) (r : BatchResult) : String :=
  let s := r.summary
  s!"transaction={r.transactionId} total={s.total} successful={s.successful} failed={s.failed} " ++
    s!"skipped={s.skipped} rolled_back={s.rolledBack} dry_run={dryRun}\n"

def resultTable (dryRun : Bool) (r : BatchResult) : String :=
  String.join (r.applied.map (fixRow (if dryRun then "would-apply" else "applied") none)) ++
    String.join (r.failed.map fun f => fixRow "failed" (messageFor? r.errors f) f) ++
    String.join (r.skipped.map (fixRow "skipped" none)) ++ summaryRow dryRun r

def resultJson (r : BatchResult) : Json :=
  .object [("success", .bool r.success), ("transaction_id", .string r.transactionId),
    ("applied_fixes", .array (r.applied.map Fix.toJson)), ("failed_fixes", .array (r.failed.map Fix.toJson)),
    ("skipped_fixes", .array (r.skipped.map Fix.toJson)),
    ("errors", .array (r.errors.map fun e =>
      .object [("fix_id", .string e.fixId), ("message", .string e.message)])),
    ("summary", .object [("total", .natural r.summary.total), ("successful", .natural r.summary.successful),
      ("failed", .natural r.summary.failed), ("skipped", .natural r.summary.skipped),
      ("rolled_back", .natural r.summary.rolledBack)])]

/-- A message with one more cause, unless the message says it already. -/
def addCause (message cause : String) : String :=
  if (Text.find? cause.toList message.toList).isSome then message else message ++ ": " ++ cause

def errorText (e : BatchError) : String := e.causes.foldl addCause e.message

def abortJson (e : BatchError) : Json :=
  .object [("success", .bool false), ("transaction_id", .string e.transactionId),
    ("error", .string (errorText e))]

/-- A JSON value on lines of its own. -/
def jsonText (j : Json) : String := j.pretty ++ "\n"

def batch (format : OutputFormat) (dryRun : Bool) : Except BatchError BatchResult → String
  | .ok r =>
      match format with
      | .json => jsonText (resultJson r)
      | .table => resultTable dryRun r
  | .error e =>
      match format with
      | .json => jsonText (abortJson e)
      | .table => row ["ABORTED", e.transactionId, errorText e]

def exitCode : Except BatchError BatchResult → Nat
  | .ok r => if r.success then 0 else 1
  | .error _ => 2

def backups (format : OutputFormat) (manifests : List Manifest) : String :=
  match format with
  | .json => jsonText (.array (manifests.map Manifest.toJson))
  | .table =>
      row ["transaction_id", "timestamp", "files"] ++ String.join (manifests.map fun m =>
        row [m.transactionId, m.timestamp.withOffset, ",".intercalate (m.entries.map ManifestEntry.filePath)])

def restored (r : RestoreReport) : String :=
  String.join (r.restored.map fun path => row ["restored", path]) ++
    String.join (r.failed.map fun (path, message) => row ["failed", path, message]) ++
    s!"restored={r.restored.length} failed={r.failed.length}\n"

def fixers (all : List Fixer) : String :=
  row ["provider", "issue_types"] ++
    String.join (all.map fun f => row [f.name, ",".intercalate f.types])

end Autofix.Report
