import Autofix.Outline.Ecma.Reader
import Autofix.Outline.Python
import Autofix.Outline.Rust
import Autofix.Syntax.Parser

/-! A parser whose trees hold what fixers look for and nothing else. -/
namespace Autofix.Outline

def ofSource (g : Grammar) (source : Text) : Outline :=
  match g with
  | .python => Python.outline source
  | .rust => Rust.outline source
  | .typeScript => Ecma.outline false source
  | .tagged => Ecma.outline true source

def rootKind : Grammar → String
  | .python => "module"
  | .rust => "source_file"
  | .typeScript | .tagged => "program"

def parser : Parser where
  tree? g source := some { kind := rootKind g, start := 0, stop := source.length, children := ofSource g source }

end Autofix.Outline
