import Autofix.Batch.Coordinator
import Autofix.Cli.Arguments
import Autofix.Cli.Report
import Autofix.Config.File

/-! A run of the program on a disk. -/
namespace Autofix.Cli

structure Surroundings where
  parser : Parser
  /-- The id of a transaction, if there will be one. -/
  id : String
  timestamp : Timestamp
  now : FileTime
  /-- The text that is typed in. -/
  input : String := ""

structure Finished where
  exitCode : Nat := 0
  output : String := ""
  /-- Lines about what is odd in the configuration. -/
  warnings : List String := []
  /-- The questions that were asked, each answered by a line of the input. -/
  prompts : List String := []
  failure : String := ""
  disk : Disk

/-- All that is printed besides the output. -/
def Finished.errors (f : Finished) : String := String.join f.warnings ++ String.join f.prompts ++ f.failure

/-- Why a run could not do its work: wordings, the outermost first. -/
abbrev Trouble := List String

def ioTrouble (e : IoError) : Trouble := e.text :: e.causes

def configTrouble (e : Config.Error) : Trouble :=
  e.message :: ((e.source?.map ioTrouble).getD [])

def snapshotTrouble (e : SnapshotError) : Trouble :=
  e.message :: ((e.source?.map ioTrouble).getD [])

def restoreTrouble : SnapshotStore.RestoreError → Trouble
  | .snapshot e => snapshotTrouble e
  | .timeOutOfRange e => [s!"the time of {e.filePath} is out of range"]

def warningLine (w : Config.Warning) : String := s!"mender config warning [{w.code}]: " ++ w.message ++ "\n"

def prompt (f : Fix) : String :=
  s!"apply {f.id} [{f.provider} risk={f.risk.name} confidence={f.confidence.fixed}] " ++
    Report.singleLine f.description ++ "? [y/N] "

/-- Does the answer say yes? -/
def isYes (answer : Text) : Bool :=
  let word := Text.toAsciiLower (Text.trim answer)
  word == "y".toList || word == "yes".toList

/-- The consent that is typed in, one line for each question. -/
def typedConsent (input : String) : Consent := fun asked _ =>
  isYes (((Text.splitAt (· == '\n') input.toList)[asked.length]?).getD [])

def loadIssues (d : Disk) (path : String) : Except Trouble (List Issue) :=
  match d.readText path with
  | .error e => .error (s!"failed to read issues file {path}" :: ioTrouble e)
  | .ok t =>
      match Issue.parseFile? (String.ofList t) with
      | some issues => .ok issues
      | none => .error [s!"failed to parse issues file {path}", "the text is no list of issues"]

def runFix (s : Surroundings) (root : String) (config : Config) (a : FixArguments) (d : Disk) :
    Except Trouble Finished := do
  let issues ← loadIssues d a.issues
  let options := a.options config.fix
  let c := Coordinator.ofConfig s.parser root config
  let fixes := c.generate d options issues
  let env : Circumstances :=
    { id := s.id, timestamp := s.timestamp, now := s.now, consent := typedConsent s.input }
  let applied := c.apply env options fixes ([], d)
  return { exitCode := Report.exitCode applied.result
           output := Report.batch a.output options.dryRun applied.result
           prompts := applied.coordinator.asked.map prompt, disk := applied.world.2 }

def storeOf (root : String) (config : Config) : SnapshotStore := ⟨Config.backupDir root config.fix⟩

def runBackups (root : String) (config : Config) (format : OutputFormat) (d : Disk) : Except Trouble Finished :=
  let store := storeOf root config
  match store.list d with
  | .ok manifests => .ok { output := Report.backups format manifests, disk := d }
  | .error e => .error (s!"failed to list backups under {store.directory}" :: snapshotTrouble e)

def runRestore (s : Surroundings) (root : String) (config : Config) (id : String) (d : Disk) :
    Except Trouble Finished × Disk :=
  match (storeOf root config).restore d s.now id with
  | (.ok report, d) =>
      (.ok { exitCode := if report.isComplete then 0 else 1, output := Report.restored report, disk := d }, d)
  | (.error e, d) => (.error (s!"failed to restore transaction {id}" :: restoreTrouble e), d)

def runInit (s : Surroundings) (root : String) (d : Disk) : Except Trouble Finished × Disk :=
  match Config.ensure root s.now d with
  | (.ok _, d) => (.ok { output := s!"config: {Config.filePath root}\n", disk := d }, d)
  | (.error e, d) => (.error ("failed to write workspace config" :: configTrouble e), d)

def runConfigured (s : Surroundings) (root : String) (config : Config) (command : Command) (d : Disk) :
    Except Trouble Finished × Disk :=
  match command with
  | .fix a => (runFix s root config a d, d)
  | .backups format => (runBackups root config format d, d)
  | .restore id => runRestore s root config id d
  | .fixers =>
      (.ok { output := Report.fixers (Coordinator.ofConfig s.parser root config).registry.fixers, disk := d }, d)
  | .init => (.ok { disk := d }, d)

/-- The end of a run, with the warnings before it. -/
def finish (warnings : List String) : Except Trouble Finished × Disk → Finished
  | (.ok f, _) => { f with warnings }
  | (.error trouble, d) =>
      { exitCode := 2, warnings, failure := "error: " ++ ": ".intercalate trouble ++ "\n", disk := d }

def run (s : Surroundings) (invocation : Invocation) (d : Disk) : Finished :=
  match d.canonical invocation.workspace with
  | .error e =>
      finish [] (.error (s!"failed to resolve workspace path {invocation.workspace}" :: ioTrouble e), d)
  | .ok root =>
      match invocation.command with
      | .init => finish [] (runInit s root d)
      | command =>
          match Config.load root d with
          | .error e => finish [] (.error ("failed to load workspace config" :: configTrouble e), d)
          | .ok config =>
              finish (config.warnings.map warningLine) (runConfigured s root config command d)

end Autofix.Cli
