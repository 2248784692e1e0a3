import Autofix.Change
import Autofix.Text.Blank
import Autofix.Text.Line

/-! Anchored edits. A change replaces the first occurrence of the text it expects, so an edit of a
stretch of a document is anchored to whole lines that occur nowhere before it. -/
namespace Autofix

/-- A replacement for the characters from `start` to `stop` of a document. -/
structure Edit where
  start : Nat
  stop : Nat
  replacement : Text
deriving DecidableEq, Repr

namespace Edit

def apply (e : Edit) (t : Text) : Text := Text.splice t e.start e.stop e.replacement

/-- The first and last position of the lines that an edit touches. A line end that closes the edit belongs to
the anchor, and so does a neighbouring line end if the lines are empty. The empty text would be found at once,
so an anchor must not be empty: an empty line takes the line end after it, the last one the line before it, and
only an empty document leaves nothing to take. -/
def lineAnchor (t : Text) (e : Edit) : Nat × Nat :=
  let start := Text.lineStart t e.start
  let stop :=
    if e.start < e.stop && (t.take e.stop).getLast? == some '\n' then e.stop else Text.lineEnd t e.stop
  if start = stop then
    if stop < t.length then (start, stop + 1)
    else if 0 < start then (Text.previousLineStart t start, stop)
    else (start, stop)
  else (start, stop)

/-- The start of an anchor moved up line by line until the text from there to `stop` occurs nowhere
before; `fuel` bounds the number of moves. -/
def widen (t : Text) (stop : Nat) : Nat → Nat → Nat
  | 0, start => start
  | fuel + 1, start =>
      if start = 0 ∨ Text.find? (Text.slice t start stop) t = some start then start
      else widen t stop fuel (Text.previousLineStart t start)

def anchor (t : Text) (e : Edit) : Nat × Nat :=
  let (start, stop) := lineAnchor t e
  (widen t stop start start, stop)

/-- The change of a file that makes an edit of its text. Line ends at the end of the anchor do not count for its
last line. -/
def toChange (path : String) (t : Text) (e : Edit) : Change :=
  let (start, stop) := anchor t e
  let expected := Text.slice t start stop
  let replacement := Text.slice t start e.start ++ e.replacement ++ Text.slice t e.stop stop
  let last := start + (Text.trimEndWhile (· == '\n') expected).length
  (Change.replace path (String.ofList expected) (String.ofList replacement)).withLines
    (Text.lineOf t start) (Text.lineOf t last)

/-- The edit that deletes a stretch of a document: with its lines, line end included, if only blanks
share them. -/
def deletion (t : Text) (start stop : Nat) : Edit :=
  let lineStart := Text.lineStart t start
  let lineEnd := Text.lineEnd t stop
  if Text.isBlankText (Text.slice t lineStart start) && Text.isBlankText (Text.slice t stop lineEnd) then
    ⟨lineStart, if lineEnd < t.length then lineEnd + 1 else lineEnd, []⟩
  else ⟨start, stop, []⟩

end Edit
end Autofix
