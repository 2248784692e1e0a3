import Autofix.IoError
import Autofix.Text.Quoted

/-! Why files could not be backed up or brought back. -/
namespace Autofix

inductive SnapshotError
  | read (path : String) (source : IoError)
  | persist (path backupFile : String) (source : IoError)
  | unknownTransaction (id : String)
  | invalidTransactionId (id : String)
  /-- The text of a manifest is no manifest; what exactly is wrong with it is not kept. -/
  | manifest
  | io (source : IoError)
deriving DecidableEq, Repr

namespace SnapshotError

def message : SnapshotError → String
  | read path source => s!"failed to read {path} for backup: " ++ source.text
  | persist path backupFile source => s!"failed to persist backup of {path} to {backupFile}: " ++ source.text
  | unknownTransaction id => s!"no persisted backups for transaction {id}"
  | invalidTransactionId id => "invalid transaction id " ++ Quoted.quote id
  | manifest => "invalid backup manifest: the text is no manifest"
  | io source => "io error: " ++ source.text

def source? : SnapshotError → Option IoError
  | read _ source => some source
  | persist _ _ source => some source
  | io source => some source
  | _ => none

end SnapshotError
end Autofix
