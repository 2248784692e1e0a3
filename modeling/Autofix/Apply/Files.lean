import Autofix.Assoc
import Autofix.IoError
import Autofix.Path

/-! Access to the texts of files. A `Files σ` reads and writes files that are part of a state `σ`;
`layered` keeps what is written in an overlay, `faulty` lets accesses fail as a plan says. -/
namespace Autofix

structure Files (σ : Type) where
  read : String → σ → Except IoError Text × σ
  write : String → Text → σ → Except IoError Unit × σ

/-- Texts by the components of their paths. -/
abbrev Overlay := Assoc (List Path.Component) Text

namespace Files

/-- What is written goes into an overlay, where reading looks first. -/
def layered (files : Files σ) : Files (Overlay × σ) where
  read path s :=
    match Assoc.get? (Path.components path) s.1 with
    | some t => (.ok t, s)
    | none =>
        let (result, s') := files.read path s.2
        (result, s.1, s')
  write path t s := (.ok (), Assoc.insert (Path.components path) t s.1, s.2)

end Files

def encodeText (t : Text) : ByteArray := (String.ofList t).toUTF8

def decodeText (bytes : ByteArray) : Except IoError Text :=
  match String.fromUTF8? bytes with
  | some s => .ok s.toList
  | none => .error .notText

theorem decodeText_encodeText (t : Text) : decodeText (encodeText t) = .ok t := by
  have valid : (String.ofList t).toUTF8.IsValidUTF8 := (String.ofList t).isValidUTF8
  have same : String.fromUTF8? (String.ofList t).toUTF8 = some (String.ofList t) := by
    simp only [String.fromUTF8?, valid, dite_true]
    rfl
  simp only [decodeText, encodeText, same, String.toList_ofList]

/-- Files that are kept as bytes by the components of their paths. -/
abbrev Memory := Assoc (List Path.Component) ByteArray

def Memory.files : Files Memory where
  read path m :=
    match Assoc.get? (Path.components path) m with
    | some bytes => (decodeText bytes, m)
    | none => (.error (.ofKind .notFound), m)
  write path t m := (.ok (), Assoc.insert (Path.components path) (encodeText t) m)

end Autofix
