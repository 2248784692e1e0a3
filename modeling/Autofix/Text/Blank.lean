import Autofix.Text.Basic

/-! Blanks: the characters with the Unicode property `White_Space`, and what hangs on them, namely
trimming, indentation and words. -/
namespace Autofix

/-- The ranges of the property `White_Space`, in ascending order. -/
def blankRanges : List (Nat × Nat) :=
  [(0x09, 0x0D), (0x20, 0x20), (0x85, 0x85), (0xA0, 0xA0), (0x1680, 0x1680), (0x2000, 0x200A),
    (0x2028, 0x2029), (0x202F, 0x202F), (0x205F, 0x205F), (0x3000, 0x3000)]

def isBlank (c : Char) : Bool := blankRanges.any fun r => r.1 ≤ c.toNat && c.toNat ≤ r.2

namespace Text

def trimStart (t : Text) : Text := t.dropWhile isBlank

def trimEnd (t : Text) : Text := trimEndWhile isBlank t

def trim (t : Text) : Text := trimEnd (trimStart t)

def isBlankText (t : Text) : Bool := t.all isBlank

def indentation (t : Text) : Text := t.takeWhile isBlank

/-- The maximal runs of characters that are no blanks. -/
def words (t : Text) : List Text := (splitAt isBlank t).filter fun w => !w.isEmpty

end Text

def trimmed (s : String) : String := String.ofList (Text.trim s.toList)

def isBlankString (s : String) : Bool := Text.isBlankText s.toList

end Autofix
