/-! Texts as lists of characters. Positions count characters, so each one lies on a character
boundary; `byteSize` and `ofByteOffset?` pass between positions and byte offsets. -/
namespace Autofix

/-- A text, one element a character. -/
abbrev Text := List Char

namespace Text

/-- The characters from position `start` up to, not including, position `stop`. -/
def slice (t : Text) (start stop : Nat) : Text := (t.take stop).drop start

def find? (needle : Text) : Text → Option Nat
  | [] => if needle = [] then some 0 else none
  | c :: rest =>
      if needle.isPrefixOf (c :: rest) then some 0 else (find? needle rest).map (· + 1)

def splice (t : Text) (start stop : Nat) (new : Text) : Text :=
  t.take start ++ new ++ t.drop stop

def byteSize (t : Text) : Nat := t.foldr (fun c size => c.utf8Size + size) 0

def byteOffset (t : Text) (position : Nat) : Nat := byteSize (t.take position)

/-- The position at a byte offset, or nothing if the offset lies inside a character; an offset
past the end stands for the end. -/
def ofByteOffset? : Text → Nat → Option Nat
  | _, 0 => some 0
  | [], _ => some 0
  | c :: rest, offset =>
      if offset < c.utf8Size then none else (ofByteOffset? rest (offset - c.utf8Size)).map (· + 1)

/-- The pieces between the characters that satisfy `isSeparator`; there is always one piece more
than separators. -/
def splitAt (isSeparator : Char → Bool) : Text → List Text
  | [] => [[]]
  | c :: rest =>
      match splitAt isSeparator rest with
      | [] => [[]]
      | piece :: pieces => if isSeparator c then [] :: piece :: pieces else (c :: piece) :: pieces

def join (separator : Text) : List Text → Text
  | [] => []
  | [piece] => piece
  | piece :: pieces => piece ++ separator ++ join separator pieces

def replaceChars (isOld : Char → Bool) (new : Char) (t : Text) : Text :=
  t.map fun c => if isOld c then new else c

/-- ASCII letters in lower case, all else unchanged. -/
def toAsciiLower (t : Text) : Text := t.map Char.toLower

def trimEndWhile (drop : Char → Bool) (t : Text) : Text := (t.reverse.dropWhile drop).reverse

end Text
end Autofix
