import Autofix.Options

/-! The configuration of a workspace, its normal form and what is odd about it. -/
namespace Autofix

structure FixSettings extends Options where
  backupDir : String := ".mender/backups"
deriving DecidableEq, Repr

structure FixerSettings where
  disabled : List String := []
  /-- The text that stands where documentation is missing. -/
  placeholder : String := "TODO: document"
deriving DecidableEq, Repr

structure Config where
  fix : FixSettings := {}
  fixers : FixerSettings := {}
deriving DecidableEq, Repr

namespace Config

/-- The names with blanks around them removed, each where it comes first, without empty ones. -/
def normalizeNames (names : List String) : List String :=
  ((names.map trimmed).filter fun name => !name.isEmpty).eraseDups

/-- The backup directory with blanks around it removed; an empty one stands for the usual one. -/
def normalizeBackupDir (path : String) : String :=
  if (trimmed path).isEmpty then ({} : FixSettings).backupDir else trimmed path

/-- The placeholder as written; a blank one stands for the usual one. -/
def normalizePlaceholder (text : String) : String :=
  if isBlankString text then ({} : FixerSettings).placeholder else text

def normalize (c : Config) : Config where
  fix := { c.fix with
    categories := normalizeNames c.fix.categories, backupDir := normalizeBackupDir c.fix.backupDir }
  fixers := ⟨normalizeNames c.fixers.disabled, normalizePlaceholder c.fixers.placeholder⟩

def backupDir (root : String) (settings : FixSettings) : String := Path.join root settings.backupDir

inductive Warning
  | confidenceOutOfRange (minConfidence : Confidence)
  | backupsDisabled
  | categoryDisabled (category : String)
deriving DecidableEq, Repr

def Warning.code : Warning → String
  | confidenceOutOfRange _ => "fix.min_confidence_out_of_range"
  | backupsDisabled => "fix.backups_disabled"
  | categoryDisabled _ => "fix.category_disabled"

def Warning.message : Warning → String
  | confidenceOutOfRange c =>
      s!"min_confidence {c.text} is outside 0.0..=1.0; every fix will be " ++
        if Confidence.one.lt c then "rejected" else "accepted"
  | backupsDisabled => "create_backup is false; failed transactions cannot be rolled back"
  | categoryDisabled category => s!"category '{category}' is allowed but its provider is disabled"

def warnings (c : Config) : List Warning :=
  (if c.fix.minConfidence.inRange then [] else [.confidenceOutOfRange c.fix.minConfidence]) ++
    (if !c.fix.createBackup && !c.fix.dryRun then [.backupsDisabled] else []) ++
    (c.fix.categories.filter c.fixers.disabled.contains).map .categoryDisabled

end Config
end Autofix
