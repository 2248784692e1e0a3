import Autofix.IoError

/-! Why a change could not be applied. -/
namespace Autofix

inductive ApplyError
  | stale (path : String)
  | missingFile (path : String)
  | notText (path : String)
  | outsideWorkspace (path : String)
  | read (path : String) (source : IoError)
  | write (path : String) (source : IoError)
deriving DecidableEq, Repr

namespace ApplyError

def message : ApplyError → String
  | stale path => s!"stale content in {path}: expected original text is no longer present"
  | missingFile path => s!"file {path} no longer exists"
  | notText path => s!"file {path} is not valid UTF-8 text"
  | outsideWorkspace path => s!"path {path} points outside the workspace"
  | read path source => s!"failed to read {path}: " ++ source.text
  | write path source => s!"failed to write {path}: " ++ source.text

def source? : ApplyError → Option IoError
  | read _ source => some source
  | write _ source => some source
  | _ => none

/-- Must a batch be given up after the error? -/
def isCatastrophic (e : ApplyError) : Bool :=
  match e.source? with
  | some source => !source.kind.isConfined
  | none => false

def ofRead (path : String) (source : IoError) : ApplyError :=
  match source.kind with
  | .notFound => missingFile path
  | .invalidData => notText path
  | _ => read path source

end ApplyError
end Autofix
