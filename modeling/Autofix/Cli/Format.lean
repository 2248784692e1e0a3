import Autofix.Level

/-! Formats of what is printed. -/
namespace Autofix

/-- How results are printed. -/
inductive OutputFormat
  | table
  | json
deriving DecidableEq, Repr

namespace OutputFormat

def name : OutputFormat → String
  | .table => "table"
  | .json => "json"

def choices : List (String × OutputFormat) := [.table, .json].map fun f => (f.name, f)

/-- The format with a name, blanks around it aside. -/
def parse (text : String) : Except UnknownName OutputFormat := lookupName "output format" choices text

end OutputFormat

inductive LogFormat
  | human
  | json
deriving DecidableEq, Repr

namespace LogFormat

def name : LogFormat → String
  | .human => "human"
  | .json => "json"

def choices : List (String × LogFormat) := [.human, .json].map fun f => (f.name, f)

def parse (text : String) : Except UnknownName LogFormat := lookupName "log format" choices text

end LogFormat
end Autofix
