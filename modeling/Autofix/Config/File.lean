import Autofix.Config.Decode
import Autofix.Disk

/-! The configuration file of a workspace. -/
namespace Autofix.Config

inductive Error
  | io (source : IoError)
  /-- The file is not what a configuration file should be; what exactly is wrong is not kept. -/
  | notToml
deriving DecidableEq, Repr

def Error.message : Error → String
  | io source => "io error: " ++ source.text
  | notToml => "failed to parse config TOML: the text is no configuration"

def Error.source? : Error → Option IoError
  | io source => some source
  | notToml => none

def directory (root : String) : String := Path.join root ".mender"

def filePath (root : String) : String := Path.join (directory root) "config.toml"

/-- The text of the usual configuration. The least confidence is written with the digits of the nearest
number of 64 bits. -/
def usualText : String :=
  "[fix]\ndry_run = false\ninteractive = false\ncategories = []\nmax_risk = \"medium\"\n" ++
    "min_confidence = 0.699999988079071\ncreate_backup = true\nvalidate_after_fix = true\n" ++
    "backup_dir = \".mender/backups\"\n\n[providers]\ndisabled = []\n\n" ++
    "[providers.documentation]\nplaceholder = \"TODO: document\"\n"

/-- The configuration of a workspace in normal form; the usual one if there is no file. -/
def load (root : String) (d : Disk) : Except Error Config :=
  if d.pathExists (filePath root) then
    match d.readText (filePath root) with
    | .error e => .error (.io e)
    | .ok t =>
        match parse? t with
        | some c => .ok c.normalize
        | none => .error .notToml
  else .ok {}

/-- The configuration of a workspace; the usual one is written if there is no file. -/
def ensure (root : String) (now : FileTime) (d : Disk) : Except Error Config × Disk :=
  match d.makeDirectories (directory root) with
  | (.error e, d) => (.error (.io e), d)
  | (.ok (), d) =>
      if d.pathExists (filePath root) then (load root d, d)
      else
        match d.write now (filePath root) usualText.toUTF8 with
        | (.error e, d) => (.error (.io e), d)
        | (.ok (), d) => (.ok {}, d)

end Autofix.Config
