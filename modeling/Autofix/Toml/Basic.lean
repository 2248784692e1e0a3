import Autofix.Number.Binary
import Autofix.Text.Basic

/-! TOML values, and tables that grow statement by statement. A table remembers how it came about, which
decides what may still be added to it. -/
namespace Autofix

inductive TableOrigin
  /-- It has a header of its own, or is the whole document. -/
  | header
  /-- A header of a table below it names it. -/
  | implied
  /-- A dotted key names it. -/
  | dotted
  /-- It is written in braces. -/
  | braces
deriving DecidableEq, Repr

inductive Toml
  | string (value : String)
  | integer (value : Int)
  | float (value : Binary)
  | bool (value : Bool)
  /-- A date or time; which one it is does not matter here. -/
  | moment
  | array (items : List Toml)
  | tables (elements : List (List (String × Toml)))
  | table (origin : TableOrigin) (fields : List (String × Toml))
deriving Repr

namespace Toml

abbrev Fields := List (String × Toml)

/-- The fields with the value of a key set; a new key comes last. -/
def setField (key : String) (value : Toml) : Fields → Fields
  | [] => [(key, value)]
  | (k, v) :: rest => if k = key then (k, value) :: rest else (k, v) :: setField key value rest

/-- A change of the table that a path of keys leads to. Tables on the way are made if they are not
there. A dotted key does not lead into a table that has a header. -/
def alter (dotted : Bool) (f : TableOrigin → Fields → Option Fields) :
    List String → TableOrigin → Fields → Option Fields
  | [], origin, fields => f origin fields
  | key :: path, _, fields =>
      match fields.lookup key with
      | none => do
          let origin := if dotted then TableOrigin.dotted else .implied
          let inner ← alter dotted f path origin []
          return setField key (.table origin inner) fields
      | some (.table origin inner) =>
          if origin = .braces ∨ (dotted ∧ origin = .header) then none
          else do
            let inner ← alter dotted f path origin inner
            return setField key (.table origin inner) fields
      | some (.tables elements) => do
          let last ← elements.getLast?
          let inner ← alter dotted f path .header last
          return setField key (.tables (elements.dropLast ++ [inner])) fields
      | some _ => none

/-- A table with a value for a new key. Values of plain keys go into tables that no dotted key has made,
and the other way round. -/
def addNew (isPlain : Bool) (key : String) (value : Toml) (origin : TableOrigin) (fields : Fields) :
    Option Fields :=
  if (origin == .dotted) == isPlain || (fields.lookup key).isSome then none
  else some (fields ++ [(key, value)])

/-- A table with the value of a dotted key added. -/
def addKey (path : List String) (value : Toml) (origin : TableOrigin) (fields : Fields) : Option Fields :=
  match path.getLast? with
  | none => none
  | some key => alter true (addNew path.dropLast.isEmpty key value) path.dropLast origin fields

/-- A table opened by its header. One that only stood above others may still get its own header, once. -/
def openTable (path : List String) (document : Fields) : Option Fields := do
  let key ← path.getLast?
  alter false (fun _ fields =>
    match fields.lookup key with
    | none => some (fields ++ [(key, .table .header [])])
    | some (.table .implied inner) => some (setField key (.table .header inner) fields)
    | some _ => none) path.dropLast .header document

def openElement (path : List String) (document : Fields) : Option Fields := do
  let key ← path.getLast?
  alter false (fun _ fields =>
    match fields.lookup key with
    | none => some (fields ++ [(key, .tables [[]])])
    | some (.tables elements) => some (setField key (.tables (elements ++ [[]])) fields)
    | some _ => none) path.dropLast .header document

def addBelow (header path : List String) (value : Toml) (document : Fields) : Option Fields :=
  alter false (addKey path value) header .header document

end Toml
end Autofix
