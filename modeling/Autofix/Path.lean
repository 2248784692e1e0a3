import Autofix.Text.Basic

/-! Paths as texts with slashes between their segments. A path is compared through its components:
doubled slashes and inner `.` segments do not count, `..` is kept as written. -/
namespace Autofix.Path

inductive Component
  | root
  | current
  | parent
  | name (text : Text)
deriving DecidableEq, Repr

/-- The pieces between slashes, empty ones included. -/
def segments (path : String) : List Text := Text.splitAt (· == '/') path.toList

/-- The component that a segment after the first stands for. -/
def Component.ofSegment? (segment : Text) : Option Component :=
  if segment = [] ∨ segment = ['.'] then none
  else if segment = ['.', '.'] then some .parent
  else some (.name segment)

/-- The components of a path. A leading slash is the root, a leading `.` is kept, and one further on is dropped. -/
def components (path : String) : List Component :=
  match segments path with
  | [] => []
  | first :: rest =>
      let leading :=
        if first = [] then (if rest = [] then none else some .root)
        else if first = ['.'] then some .current
        else Component.ofSegment? first
      leading.toList ++ rest.filterMap Component.ofSegment?

def same (p q : String) : Bool := components p == components q

def isAbsolute (path : String) : Bool := path.toList.head? == some '/'

def normalize (path : String) : String :=
  String.ofList (Text.replaceChars (· == '\\') '/' path.toList)

def Component.descends : Component → Bool
  | .name _ => true
  | .current => true
  | _ => false

/-- Does the path, slashes and backslashes alike, name something below the directory it is joined to?
It must have a component, and neither root nor parent among them. -/
def isWorkspaceRelative (path : String) : Bool :=
  let parts := components (normalize path)
  !parts.isEmpty && parts.all Component.descends

/-- The path below `directory`; an absolute path stands for itself. -/
def join (directory path : String) : String :=
  if isAbsolute path then path
  else if directory.isEmpty || directory.toList.getLast? == some '/' then directory ++ path
  else directory ++ "/" ++ path

def fileName? (path : String) : Option Text :=
  match (components path).getLast? with
  | some (.name text) => some text
  | _ => none

/-- What follows the last dot of the file name, unless that dot is its first character. -/
def extension? (path : String) : Option String := do
  let name ← fileName? path
  let after := name.reverse.takeWhile (· != '.')
  if name.length ≤ after.length + 1 then none else some (String.ofList after.reverse)

/-- The path as one file name: slashes and backslashes become underscores. -/
def flatten (path : String) : String :=
  String.ofList (Text.replaceChars (fun c => c == '/' || c == '\\') '_' path.toList)


end Autofix.Path
