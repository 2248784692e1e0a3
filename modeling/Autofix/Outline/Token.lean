import Autofix.Text.Blank
import Autofix.Text.Letter

/-! Tokens of a source, and token trees, in which what stands between two brackets is one item. -/
namespace Autofix.Outline

/-- Kinds of tokens. Comments and blanks are no tokens. -/
inductive TokenKind
  | word
  | number
  | string
  | symbol
  | opening
  | closing
deriving DecidableEq, Repr

structure Token where
  kind : TokenKind
  text : Text
  start : Nat
  /-- Is the token the first one on its line? -/
  fresh : Bool
deriving DecidableEq, Repr

def Token.stop (t : Token) : Nat := t.start + t.text.length

/-- A token that is no bracket, or all that stands between two brackets. -/
inductive Tree
  | leaf (token : Token)
  | group (opening : Token) (items : List Tree) (stop : Nat)
deriving Repr

namespace Tree

def first : Tree → Token
  | leaf token => token
  | group opening _ _ => opening

def start (t : Tree) : Nat := t.first.start

def stop : Tree → Nat
  | leaf token => token.stop
  | group _ _ stop => stop

def fresh (t : Tree) : Bool := t.first.fresh

def isWord (text : String) : Tree → Bool
  | leaf token => token.kind == .word && token.text == text.toList
  | group .. => false

def isWordOf (texts : List String) (t : Tree) : Bool := texts.any t.isWord

def isSymbol (text : String) : Tree → Bool
  | leaf token => token.kind == .symbol && token.text == text.toList
  | group .. => false

def isString : Tree → Bool
  | leaf token => token.kind == .string
  | group .. => false

def word? : Tree → Option String
  | leaf token => if token.kind == .word then some (String.ofList token.text) else none
  | group .. => none

/-- What stands between brackets of the given kind. -/
def inside? (bracket : Char) : Tree → Option (List Tree)
  | leaf _ => none
  | group opening items _ => if opening.text == [bracket] then some items else none

def isGroup (bracket : Char) (t : Tree) : Bool := (t.inside? bracket).isSome

end Tree

/-- Do two brackets belong together? -/
def brackets (opening closing : Text) : Bool :=
  [("(", ")"), ("[", "]"), ("\x7b", "\x7d"), ("`", "`"), ("<", ">"), ("<", "/>")].any fun p =>
    opening == p.1.toList && closing == p.2.toList

/-- The trees of a list of tokens: `level` holds what has been read, last item first, since the bracket on top
of `outer` was opened. Nothing if brackets do not match. A finished group joins the level that was set aside
when its bracket was opened. -/
def treesFrom (level : List Tree) (outer : List (Token × List Tree)) : List Token → Option (List Tree)
  | [] => if outer.isEmpty then some level.reverse else none
  | token :: rest =>
      match token.kind with
      | .opening => treesFrom [] ((token, level) :: outer) rest
      | .closing =>
          match outer with
          | [] => none
          | (opening, above) :: outer =>
              if brackets opening.text token.text then
                treesFrom (.group opening level.reverse token.stop :: above) outer rest
              else none
      | _ => treesFrom (.leaf token :: level) outer rest

def trees? (tokens : List Token) : Option (List Tree) := treesFrom [] [] tokens

mutual

def Tree.size : Tree → Nat
  | .leaf _ => 1
  | .group _ items _ => 1 + sizes items

def sizes : List Tree → Nat
  | [] => 0
  | t :: rest => t.size + sizes rest

end

def startsWord (c : Char) : Bool := c == '_' || (isLetterOrDigit c && !c.isDigit)

def continuesWord (c : Char) : Bool := c == '_' || isLetterOrDigit c

/-- The text after a quoted string whose opening quote has been read: `quote` closes it unless a
backslash comes first. -/
def afterQuoted (quote : Char) : Text → Option Text
  | [] => none
  | '\\' :: _ :: rest => afterQuoted quote rest
  | c :: rest => if c == quote then some rest else afterQuoted quote rest

def afterMark (mark : Text) : Text → Option Text
  | [] => none
  | c :: rest =>
      if mark.isPrefixOf (c :: rest) then some ((c :: rest).drop mark.length) else afterMark mark rest

/-- A scanner under way: the text that is left, its place, whether the line is still without token, and
the tokens so far, last first. -/
structure Scan where
  rest : Text
  position : Nat
  fresh : Bool
  tokens : List Token

namespace Scan

def skip (s : Scan) (count : Nat) : Scan :=
  { s with rest := s.rest.drop count, position := s.position + count }

/-- The scan after some characters that are no token, up to what is left of the text. -/
def skipTo (s : Scan) (rest : Text) : Scan := s.skip (s.rest.length - rest.length)

def newLine (s : Scan) : Scan := { s.skip 1 with fresh := true }

def emit (s : Scan) (kind : TokenKind) (count : Nat) : Scan :=
  { rest := s.rest.drop count, position := s.position + count, fresh := false
    tokens := ⟨kind, s.rest.take count, s.position, s.fresh⟩ :: s.tokens }

/-- The scan after a token that reaches up to what is left of the text. -/
def emitTo (s : Scan) (kind : TokenKind) (rest : Text) : Scan :=
  s.emit kind (s.rest.length - rest.length)

def start (source : Text) : Scan := ⟨source, 0, true, []⟩

end Scan

/-- The kind of a character that is a token by itself. -/
def bracketKind (c : Char) : TokenKind :=
  if "([\x7b".toList.contains c then .opening
  else if ")]\x7d".toList.contains c then .closing
  else .symbol

/-- The tokens of a source: `step` reads one token or skips something, and ends with nothing where the
source cannot be read. Each step takes at least one of the characters that the fuel counts. -/
def scanWith (step : Scan → Option Scan) : Nat → Scan → Option (List Token)
  | 0, s => if s.rest.isEmpty then some s.tokens.reverse else none
  | fuel + 1, s => if s.rest.isEmpty then some s.tokens.reverse else (step s).bind (scanWith step fuel)

def treesWith? (step : Scan → Option Scan) (source : Text) : Option (List Tree) :=
  (scanWith step source.length (.start source)).bind trees?

end Autofix.Outline
