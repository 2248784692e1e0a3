import Autofix.Text.Basic

/-! JSON values and their texts. A number keeps its literal, so a value is written exactly as it was
built. -/
namespace Autofix

/-- A JSON value; the fields of an object are in order. -/
inductive Json
  | null
  | bool (value : Bool)
  | number (literal : String)
  | string (value : String)
  | array (items : List Json)
  | object (fields : List (String × Json))
deriving Repr

namespace Json

def natural (n : Nat) : Json := .number (toString n)

def orNull (value : Option Json) : Json := value.getD .null

/-- A field, or no field if there is no value. -/
def field? (name : String) (value : Option Json) : List (String × Json) :=
  (value.map fun v => (name, v)).toList

def hexDigit (n : Nat) : Char := "0123456789abcdef".toList.getD n '0'

/-- A character as it stands in a string: quotes, backslashes and control characters are escaped. -/
def escape (c : Char) : Text :=
  if c = '"' then ['\\', '"']
  else if c = '\\' then ['\\', '\\']
  else if c = '\x08' then ['\\', 'b']
  else if c = '\t' then ['\\', 't']
  else if c = '\n' then ['\\', 'n']
  else if c = '\x0c' then ['\\', 'f']
  else if c = '\r' then ['\\', 'r']
  else if c.toNat < 0x20 then
    ['\\', 'u', '0', '0', hexDigit (c.toNat / 16), hexDigit (c.toNat % 16)]
  else [c]

def quote (s : String) : Text := '"' :: s.toList.flatMap escape ++ ['"']

/-- The break before an item at a depth; without depth everything stands on one line. -/
def lineBreak : Option Nat → Text
  | none => []
  | some depth => '\n' :: List.replicate (2 * depth) ' '

def deeper (depth : Option Nat) : Option Nat := depth.map (· + 1)

def colon : Option Nat → Text
  | none => [':']
  | some _ => [':', ' ']

mutual

/-- The text of a value at a depth. -/
def render (depth : Option Nat) : Json → Text
  | .null => "null".toList
  | .bool true => "true".toList
  | .bool false => "false".toList
  | .number literal => literal.toList
  | .string s => quote s
  | .array [] => ['[', ']']
  | .array (item :: items) =>
      '[' :: lineBreak (deeper depth) ++ render (deeper depth) item ++
        renderItems (deeper depth) items ++ lineBreak depth ++ [']']
  | .object [] => ['\x7b', '\x7d']
  | .object ((name, value) :: fields) =>
      '\x7b' :: lineBreak (deeper depth) ++ quote name ++ colon depth ++
        render (deeper depth) value ++ renderFields (deeper depth) fields ++ lineBreak depth ++ ['\x7d']

def renderItems (depth : Option Nat) : List Json → Text
  | [] => []
  | item :: items => ',' :: lineBreak depth ++ render depth item ++ renderItems depth items

def renderFields (depth : Option Nat) : List (String × Json) → Text
  | [] => []
  | (name, value) :: fields =>
      ',' :: lineBreak depth ++ quote name ++ colon depth ++ render depth value ++
        renderFields depth fields

end

def compact (value : Json) : String := String.ofList (render none value)

/-- The value on lines of its own, each level indented by two blanks. -/
def pretty (value : Json) : String := String.ofList (render (some 0) value)

/-- The value of the last field with a name. -/
def get? (name : String) : Json → Option Json
  | .object fields => (fields.reverse.find? fun f => f.1 == name).map Prod.snd
  | _ => none

end Json
end Autofix
