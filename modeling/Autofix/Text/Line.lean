import Autofix.Text.Basic

/-! Lines of a text. A line ends before its `'\n'`; the text after the last `'\n'`, empty or not, is
the last line. Line numbers start at 1, positions at 0. -/
namespace Autofix.Text

def isNewline (c : Char) : Bool := c == '\n'

def newlines (t : Text) : Nat := t.count '\n'

/-- The start of the line that holds `position`. -/
def lineStart (t : Text) (position : Nat) : Nat :=
  (t.take position).length - ((t.take position).reverse.takeWhile fun c => !isNewline c).length

/-- The end of the line that holds `position`, before its line end. -/
def lineEnd (t : Text) (position : Nat) : Nat :=
  (t.take position).length + ((t.drop position).takeWhile fun c => !isNewline c).length

def lineBounds (t : Text) (position : Nat) : Nat × Nat := (lineStart t position, lineEnd t position)

/-- The number of the line that holds `position`. -/
def lineOf (t : Text) (position : Nat) : Nat := newlines (t.take position) + 1

/-- The start of the line that lies `rows` lines below `start`, itself the start of a line. -/
def lineStartBelow? (t : Text) (start : Nat) : Nat → Option Nat
  | 0 => some start
  | rows + 1 => do
      let newline ← find? ['\n'] (t.drop start)
      lineStartBelow? t (start + newline + 1) rows

/-- The bounds of a line given by its number, or nothing if the text has no such line. -/
def lineRange? (t : Text) (line : Nat) : Option (Nat × Nat) :=
  match line with
  | 0 => none
  | row + 1 => (lineStartBelow? t 0 row).map (lineBounds t)

/-- The lines, without their line ends. -/
def lines (t : Text) : List Text := splitAt isNewline t

/-- The start of the line that holds `position`, or of the line before if `position` is itself the
start of a line. -/
def previousLineStart (t : Text) (position : Nat) : Nat :=
  let start := lineStart t position
  if start < position ∨ start = 0 then start else lineStart t (start - 1)

/-- The first of some items whose place lies on a line of the text. -/
def onLine? (t : Text) (place : α → Nat) (items : List α) (line : Nat) : Option α :=
  items.find? fun item => lineOf t (place item) == line

theorem lineStart_le (t : Text) (position : Nat) : lineStart t position ≤ position := by
  simp only [lineStart, List.length_take]
  omega

theorem previousLineStart_lt {t : Text} {position : Nat} (h : 0 < position) :
    previousLineStart t position < position := by
  have hs := lineStart_le t position
  have hp := lineStart_le t (lineStart t position - 1)
  simp only [previousLineStart]
  split <;> omega

end Autofix.Text
