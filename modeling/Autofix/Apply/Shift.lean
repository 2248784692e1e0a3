import Autofix.Change
import Autofix.Text.Line

/-! Line shifts: where a line of the text that fixes were made for stands after some of them have been
applied. -/
namespace Autofix

/-- A change that put lines in or took lines out after a line. -/
structure Shift where
  path : String
  after : Nat
  delta : Int
deriving DecidableEq, Repr

structure LineShifts where
  shifts : List Shift := []
  /-- Files that have been replaced as a whole, where line numbers mean nothing. -/
  replaced : List String := []
deriving DecidableEq, Repr

namespace LineShifts

def offset (s : LineShifts) (path : String) (line : Nat) : Int :=
  (s.shifts.filter fun shift => shift.path == path && shift.after < line).foldr
    (fun shift total => shift.delta + total) 0

/-- A line number moved by an offset, kept between 0 and the greatest number of 64 bits. -/
def moveLine (line : Nat) (offset : Int) : Nat := min ((line : Int) + offset).toNat Json.maxWord

/-- Where a line of a file stands now, unless the file was replaced. -/
def currentLine? (s : LineShifts) (path : String) (line : Nat) : Option Nat :=
  if s.replaced.contains path then none else some (moveLine line (s.offset path line))

def expectedLine? (s : LineShifts) (c : Change) : Option Nat :=
  c.startLine.bind (s.currentLine? c.filePath)

def growth (c : Change) : Int := (Text.newlines c.replacement.toList : Int) - Text.newlines c.expected.toList

/-- The growth of a change put on record; a change that does not say where it stands has none to record. -/
def record (s : LineShifts) (c : Change) : LineShifts :=
  if c.isWholeFile then { s with replaced := s.replaced ++ [c.filePath] }
  else
    match c.endLine.or c.startLine with
    | none => s
    | some after =>
        if growth c = 0 then s
        else { s with shifts := s.shifts ++ [⟨c.filePath, after, growth c⟩] }

end LineShifts

namespace Change

/-- The text with the first occurrence of what the change expects replaced, or nothing if there is none or if it
does not start on the line where it should. A whole file is replaced without a look at what stands there. -/
def substitute? (c : Change) (expectedLine : Option Nat) (t : Text) : Option Text :=
  if c.isWholeFile then some c.replacement.toList
  else do
    let start ← Text.find? c.expected.toList t
    if expectedLine.all (· == Text.lineOf t start) then
      some (Text.splice t start (start + c.expected.toList.length) c.replacement.toList)
    else none

end Change
end Autofix
