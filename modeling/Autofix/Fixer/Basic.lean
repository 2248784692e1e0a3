import Autofix.Fix
import Autofix.Issue
import Autofix.Syntax.Parser

/-! Fixers: each makes fixes for some types of issues, and judges fixes. -/
namespace Autofix

/-- What a fixer is asked: an issue, the text of its file and what is known about it. -/
structure FixRequest where
  issue : Issue
  content : Text
  language : Option Language
  placeholder : String

inductive FixerError
  | parse (source : ParseError)
  | failed (text : String)
deriving DecidableEq, Repr

def FixerError.message : FixerError → String
  | parse source => "parse error: " ++ source.message
  | failed text => text

structure Fixer where
  name : String
  types : List String
  /-- A fix for an issue, if there is one to make. -/
  generate : FixRequest → Except FixerError (Option Fix)
  /-- Is a fix one that the fixer may have made? -/
  accepts : Fix → Bool := Fix.isWellFormed

def Fixer.canFix (f : Fixer) (issue : Issue) : Bool := f.types.contains issue.type

def FixRequest.parse (r : FixRequest) (parser : Parser) (language : Language) : Except FixerError Parsed :=
  (parser.parse language r.issue.filePath r.content).mapError .parse

end Autofix
