import Autofix.Path
import Autofix.Text.Blank

/-! The languages that fixes are made for, and the grammars that outline their sources. -/
namespace Autofix

inductive Language
  | rust
  | typeScript
  | tsx
  | javaScript
  | jsx
  | python
deriving DecidableEq, Repr

namespace Language

def name : Language → String
  | rust => "rust"
  | typeScript => "typescript"
  | tsx => "tsx"
  | javaScript => "javascript"
  | jsx => "jsx"
  | python => "python"

def all : List Language := [rust, typeScript, tsx, javaScript, jsx, python]

def ofName? (text : String) : Option Language := all.find? fun l => l.name == text

/-- The file name extensions of the language, in lower case. -/
def extensions : Language → List String
  | rust => ["rs"]
  | typeScript => ["ts", "mts", "cts"]
  | tsx => ["tsx"]
  | javaScript => ["js", "mjs", "cjs"]
  | jsx => ["jsx"]
  | python => ["py", "pyi"]

/-- The language of an extension, in any case, with or without leading dots. -/
def ofExtension? (text : String) : Option Language :=
  let key := String.ofList (Text.toAsciiLower (text.toList.dropWhile (· == '.')))
  all.find? fun l => l.extensions.contains key

def ofPath? (path : String) : Option Language := (Path.extension? path).bind ofExtension?

def isEcmaScript : Language → Bool
  | typeScript | tsx | javaScript | jsx => true
  | _ => false

end Language

/-- A grammar that outlines sources; the third reads types, the fourth types and tags. -/
inductive Grammar
  | python
  | rust
  | typeScript
  | tagged
deriving DecidableEq, Repr

namespace Grammar

def name : Grammar → String
  | python => "python"
  | rust => "rust"
  | typeScript => "typescript"
  | tagged => "tsx_js"

def extensions : Grammar → List String
  | python => ["py", "pyi"]
  | rust => ["rs"]
  | typeScript => ["ts", "mts", "cts"]
  | tagged => ["tsx", "js", "jsx", "mjs", "cjs"]

/-- The grammars that are there, in the order in which they are asked. -/
abbrev Catalog := List Grammar

def standard : Catalog := [python, rust, typeScript, tagged]

/-- The grammar for an extension, in any case, leading dots and then blanks around it aside. -/
def ofExtension? (catalog : Catalog) (text : String) : Option Grammar :=
  let key := String.ofList (Text.toAsciiLower (Text.trim (text.toList.dropWhile (· == '.'))))
  catalog.find? fun g => g.extensions.contains key

def ofName? (catalog : Catalog) (text : String) : Option Grammar :=
  catalog.find? fun g => g.name == text

def ofPath? (catalog : Catalog) (path : String) : Option Grammar :=
  (Path.extension? path).bind (ofExtension? catalog)

def ofLanguage : Language → Grammar
  | .rust => rust
  | .typeScript => typeScript
  | .tsx | .javaScript | .jsx => tagged
  | .python => python

/-- The grammar for a file: the one its name asks for, else the one its language asks for. -/
def select? (catalog : Catalog) (language : Language) (path : String) : Option Grammar :=
  (ofPath? catalog path).or (catalog.find? (· == ofLanguage language))

end Grammar
end Autofix
