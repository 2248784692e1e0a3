import Autofix.Apply.Fault
import Autofix.Batch.Run
import Autofix.Config.Basic
import Autofix.Fixer.Registry
import Autofix.Snapshot.Store

/-! The coordinator: it makes fixes for issues, and applies fixes as one transaction with backups. -/
namespace Autofix

/-- All that is kept about a workspace besides its files. -/
structure Coordinator where
  root : String
  store : SnapshotStore
  registry : Registry := {}
  /-- The text that stands where documentation is missing. -/
  placeholder : String := ({} : FixerSettings).placeholder
  /-- The transactions so far, oldest first. -/
  history : List Transaction := []
  asked : List Fix := []

structure Circumstances where
  id : String
  timestamp : Timestamp
  now : FileTime
  plan : FaultPlan := .none
  consent : Consent := fun _ _ => true

/-- The disk and the accesses of fixes to it so far. -/
abbrev World := List Access × Disk

namespace Coordinator

def ofConfig (parser : Parser) (root : String) (config : Config) : Coordinator :=
  { root, store := ⟨Config.backupDir root config.fix⟩, placeholder := config.fixers.placeholder
    registry := Registry.registerAll (Registry.enabled parser config.fixers.disabled) }

def transaction? (c : Coordinator) (id : String) : Option Transaction := c.history.find? fun t => t.id == id

abbrev Contents := Assoc String Text

/-- The text of an issue's file, from what was read before or from the disk. -/
def contentFor? (c : Coordinator) (d : Disk) (seen : Contents) (path : String) : Option (Text × Contents) :=
  match Assoc.get? path seen with
  | some t => some (t, seen)
  | none => do
      let resolved ← (resolve c.root path).toOption
      let t ← (d.readText resolved).toOption
      return (t, Assoc.insert path t seen)

/-- The fix for an issue in a text, if it stands up to validation and is wanted. -/
def fixIn? (c : Coordinator) (d : Disk) (options : Options) (fixer : Fixer) (issue : Issue) (t : Text) :
    Option Fix := do
  let made ← (fixer.generate ⟨issue, t, Language.ofPath? issue.filePath, c.placeholder⟩).toOption
  let f ← made
  if (Validation.check c.root d (some fixer) f).toBool && options.wants f then some f else none

/-- The fixes for issues, in order; a file that was read is not read again. -/
def generateFrom (c : Coordinator) (d : Disk) (options : Options) : List Issue → Contents → List Fix
  | [], _ => []
  | issue :: rest, seen =>
      match if issue.autoFix then c.registry.fixerFor? issue else none with
      | none => generateFrom c d options rest seen
      | some fixer =>
          match c.contentFor? d seen issue.filePath with
          | none => generateFrom c d options rest seen
          | some (t, seen) => (c.fixIn? d options fixer issue t).toList ++ generateFrom c d options rest seen

def generate (c : Coordinator) (d : Disk) (options : Options) (issues : List Issue) : List Fix :=
  c.generateFrom d options issues []

def checked (c : Coordinator) (d : Disk) (fixes : List Fix) : List (Fix × Option ValidationError) :=
  fixes.map fun f =>
    match Validation.check c.root d none f with
    | .ok () => (f, none)
    | .error e => (f, some e)

/-- The paths that fixes with nothing wrong touch, each where it comes first. -/
def touchedPaths (checked : List (Fix × Option ValidationError)) : List String :=
  ((checked.filter fun f => f.2.isNone).flatMap fun f => f.1.touchedFiles).eraseDups

/-- Backups of paths in order, up to the first that fails. Validation lets no path through that cannot be
resolved; such a path would be passed over. -/
def takeBackups (c : Coordinator) (now : FileTime) :
    List String → Transaction → Disk → Except SnapshotError Unit × Transaction × Disk
  | [], t, d => (.ok (), t, d)
  | path :: rest, t, d =>
      match resolve c.root path with
      | .error _ => takeBackups c now rest t d
      | .ok resolved =>
          match c.store.backup d now t path resolved with
          | (.ok _, t, d) => takeBackups c now rest t d
          | (.error e, t, d) => (.error e, t, d)

def files (env : Circumstances) : Files World :=
  (Disk.files env.now).faulty env.plan fun path bytes d => (d.write env.now path bytes).2

/-- The judgement of a fix's fixer, or of nobody in particular if that fixer is not registered. -/
def approves (c : Coordinator) (f : Fix) : Bool :=
  match c.registry.get? f.provider with
  | some fixer => fixer.accepts f
  | none => f.isWellFormed

def batch (c : Coordinator) (env : Circumstances) (options : Options) (files : Files σ) : Batch σ :=
  { files, root := c.root, options, consent := env.consent, approves := c.approves }

/-- Where a batch starts. -/
def outset (c : Coordinator) (env : Circumstances) (checked : List (Fix × Option ValidationError)) (state : σ) :
    Progress σ :=
  { state, asked := c.asked, report := .start env.id checked.length }

def perform (c : Coordinator) (env : Circumstances) (options : Options)
    (checked : List (Fix × Option ValidationError)) (w : World) : Except ApplyError Unit × Progress World :=
  (c.batch env options (files env)).run checked (c.outset env checked w)

def rehearse (c : Coordinator) (env : Circumstances) (options : Options)
    (checked : List (Fix × Option ValidationError)) (w : World) :
    Except ApplyError Unit × Progress (Overlay × World) :=
  (c.batch env options (files env).layered).run checked (c.outset env checked ([], w))

structure Applied where
  result : Except BatchError BatchResult
  coordinator : Coordinator
  world : World
  /-- The report on the files that were brought back, if the batch was given up. -/
  rollback : Option RestoreReport := none

def record (c : Coordinator) (t : Transaction) (asked : List Fix) : Coordinator :=
  { c with history := c.history ++ [t], asked }

def complete (c : Coordinator) (t : Transaction) (p : Progress World) : Applied where
  result := .ok p.report.finish
  coordinator := c.record { t with status := .applied } p.asked
  world := p.state

/-- A batch given up: the files are brought back if there are backups, and else what was written stays. -/
def abort (c : Coordinator) (env : Circumstances) (t : Transaction) (e : ApplyError) (p : Progress World) :
    Applied :=
  if t.backups.isEmpty then
    { result := .error (.unrecovered t.id p.written e), world := p.state
      coordinator := c.record { t with status := .failed } p.asked }
  else
    let (report, t, d) := SnapshotStore.rollback p.state.2 env.now t
    { result := .error (.rolledBack t.id p.written e), world := (p.state.1, d)
      coordinator := c.record t p.asked, rollback := some report }

/-- The fixes tried in order. A dry run drops the overlay, and with it all that it wrote. -/
def execute (c : Coordinator) (env : Circumstances) (options : Options)
    (checked : List (Fix × Option ValidationError)) (t : Transaction) (w : World) : Applied :=
  let (result, p) :=
    if options.dryRun then
      let (result, p) := c.rehearse env options checked w
      (result, { p with state := p.state.2 })
    else c.perform env options checked w
  match result with
  | .ok () => c.complete t p
  | .error e => c.abort env t e p

/-- Fixes applied in order as one transaction. Nothing is written if a backup fails. A dry run writes nothing and
needs no backups. -/
def apply (c : Coordinator) (env : Circumstances) (options : Options) (fixes : List Fix) (w : World) : Applied :=
  let t : Transaction := { id := env.id, timestamp := env.timestamp, fixes }
  let checked := c.checked w.2 fixes
  if options.createBackup && !options.dryRun then
    match c.takeBackups env.now (touchedPaths checked) t w.2 with
    | (.ok (), t, d) => c.execute env options checked t (w.1, d)
    | (.error e, t, d) =>
        { result := .error (.backup t.id e), world := (w.1, d)
          coordinator := c.record { t with status := .failed } c.asked }
  else c.execute env options checked t w

end Coordinator
end Autofix
