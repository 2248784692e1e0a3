import Autofix.Config.Basic
import Autofix.Toml.Reader

/-! Configurations as TOML documents. A record may be written as a table, where unknown keys are passed
over, or as an array of its fields in order; what is missing has its usual value. -/
namespace Autofix.Config
open Toml (Fields)

structure Slot (σ : Type) where
  name : String
  read : Toml → σ → Option σ

/-- A slot for a value that `decode?` reads and `set` puts into place. -/
def Slot.of (name : String) (decode? : Toml → Option α) (set : α → σ → σ) : Slot σ :=
  ⟨name, fun v s => (decode? v).map (set · s)⟩

def fillFields (fields : Fields) : List (Slot σ) → σ → Option σ
  | [], s => some s
  | slot :: slots, s =>
      match fields.lookup slot.name with
      | some v => (slot.read v s).bind (fillFields fields slots)
      | none => fillFields fields slots s

def fillItems : List Toml → List (Slot σ) → σ → Option σ
  | item :: items, slot :: slots, s => (slot.read item s).bind (fillItems items slots)
  | _, _, s => some s

/-- A record that starts from its usual values. A date or time gives none of them. -/
def record? (slots : List (Slot σ)) (usual : σ) : Toml → Option σ
  | .table _ fields => fillFields fields slots usual
  | .array items => fillItems items slots usual
  | .tables elements => fillItems (elements.map (.table .header)) slots usual
  | .moment => some usual
  | _ => none

def bool? : Toml → Option Bool
  | .bool b => some b
  | _ => none

def string? : Toml → Option String
  | .string s => some s
  | _ => none

def strings? : Toml → Option (List String)
  | .array items => items.mapM string?
  | .tables [] => some []
  | _ => none

/-- A confidence, written as a float or as an integer. -/
def confidence? : Toml → Option Confidence
  | .float value => some ⟨value.convert .single⟩
  | .integer n => some (.ofDecimal ⟨decide (n < 0), n.natAbs, 0⟩)
  | _ => none

def isEmpty : Toml → Bool
  | .table _ [] => true
  | .array [] => true
  | .tables [] => true
  | _ => false

/-- A risk, written as its name or as a table with its name for the only key and nothing below. -/
def risk? : Toml → Option Risk
  | .string name => Risk.ofName? name
  | .table _ [(name, value)] => if isEmpty value then Risk.ofName? name else none
  | _ => none

def fixSlots : List (Slot FixSettings) :=
  [.of "dry_run" bool? fun v s => { s with dryRun := v },
    .of "interactive" bool? fun v s => { s with interactive := v },
    .of "categories" strings? fun v s => { s with categories := v },
    .of "max_risk" risk? fun v s => { s with maxRisk := v },
    .of "min_confidence" confidence? fun v s => { s with minConfidence := v },
    .of "create_backup" bool? fun v s => { s with createBackup := v },
    .of "validate_after_fix" bool? fun v s => { s with validateAfterFix := v },
    .of "backup_dir" string? fun v s => { s with backupDir := v }]

def documentationSlots : List (Slot String) := [.of "placeholder" string? fun v _ => v]

def fixerSlots : List (Slot FixerSettings) :=
  [.of "disabled" strings? fun v s => { s with disabled := v },
    .of "documentation" (record? documentationSlots ({} : FixerSettings).placeholder) fun v s =>
      { s with placeholder := v }]

def slots : List (Slot Config) :=
  [.of "fix" (record? fixSlots {}) fun v s => { s with fix := v },
    .of "providers" (record? fixerSlots {}) fun v s => { s with fixers := v }]

def parse? (t : Text) : Option Config := do
  let fields ← Toml.parse? t
  fillFields fields slots {}

end Autofix.Config
