import Autofix.Text.Blank

/-! Named levels: the severity of an issue and the risk of a fix, each ordered from low to high. -/
namespace Autofix

/-- A name that stands for nothing in a fixed list of names. -/
structure UnknownName where
  kind : String
  name : String
  expected : List String
deriving DecidableEq, Repr

def UnknownName.message (e : UnknownName) : String :=
  s!"invalid {e.kind} '{e.name}', expected one of: " ++ ", ".intercalate e.expected

/-- The value of the entry that has the given name, blanks around it aside. -/
def lookupName (kind : String) (table : List (String × α)) (text : String) :
    Except UnknownName α :=
  match table.lookup (trimmed text) with
  | some a => .ok a
  | none => .error ⟨kind, trimmed text, table.map Prod.fst⟩

inductive Severity
  | low
  | medium
  | high
  | critical
deriving DecidableEq, Repr

namespace Severity

def name : Severity → String
  | low => "low"
  | medium => "medium"
  | high => "high"
  | critical => "critical"

def rank : Severity → Nat
  | low => 0
  | medium => 1
  | high => 2
  | critical => 3

def table : List (String × Severity) := [low, medium, high, critical].map fun s => (s.name, s)

/-- The severity with exactly this name. -/
def ofName? (text : String) : Option Severity := table.lookup text

/-- The severity with this name, blanks around it aside. -/
def parse (text : String) : Except UnknownName Severity := lookupName "severity" table text

theorem ofName?_name (s : Severity) : ofName? s.name = some s := by cases s <;> decide

end Severity

inductive Risk
  | low
  | medium
  | high
deriving DecidableEq, Repr

namespace Risk

def name : Risk → String
  | low => "low"
  | medium => "medium"
  | high => "high"

def rank : Risk → Nat
  | low => 0
  | medium => 1
  | high => 2

def table : List (String × Risk) := [low, medium, high].map fun r => (r.name, r)

def ofName? (text : String) : Option Risk := table.lookup text

def parse (text : String) : Except UnknownName Risk := lookupName "risk level" table text

theorem ofName?_name (r : Risk) : ofName? r.name = some r := by cases r <;> decide

end Risk
end Autofix
