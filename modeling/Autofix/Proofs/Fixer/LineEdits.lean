import Autofix.Proofs.Fixer.Formatting
import Autofix.Proofs.Text.Byte
import Autofix.Proofs.Text.LineNumber

/-! Formatting of one line and of a whole text. Where a line starts is found by its number, or by the lengths of the
lines before it; both give each line the same edit. -/
namespace Autofix
open Text

namespace Text

/-- In bytes, a line starts after the lines before it and one line end for each. -/
lemma byteSize_flatMap (ls : List Text) :
    byteSize (ls.flatMap (· ++ ['\n'])) = (ls.map fun l => byteSize l + 1).sum := by
  induction ls with
  | nil => rfl
  | cons l rest ih =>
    rw [List.flatMap_cons, byteSize_append, byteSize_append, ih, List.map_cons, List.sum_cons]
    rfl

end Text

namespace Formatting
variable {t line : Text} {ls rest : List Text} {k : Nat} {e : Edit}

section Line

/-- The edits of a line by its number are what the edit of a line makes of it and of where it starts. -/
lemma lineEdits_of_lines (h : lines t = ls ++ line :: rest) (edit? : Text → Nat → Option Edit) :
    lineEdits t (some (ls.length + 1)) edit? = (edit? line (ls.flatMap (· ++ ['\n'])).length).toList := by
  simp only [lineEdits, lineRange?_of_lines h, Option.bind_eq_bind, Option.bind_some, slice_of_lines h]

lemma lineEdits_eq_nil (h : k = 0 ∨ (lines t).length < k) (edit? : Text → Nat → Option Edit) :
    lineEdits t (some k) edit? = [] := by
  rw [lineEdits, lineRange?_eq_none h]
  rfl

lemma reverse_lineEdits (t : Text) (k : Nat) (edit? : Text → Nat → Option Edit) :
    (lineEdits t (some k) edit?).reverse = lineEdits t (some k) edit? := by
  obtain ⟨e?, he⟩ : ∃ e? : Option Edit, lineEdits t (some k) edit? = e?.toList := ⟨_, rfl⟩
  rw [he]
  cases e? <;> rfl

/-- The edits of the lines from one on are those of their numbers. -/
lemma editsFrom_eq_flatMap (h : lines t = ls ++ rest) (edit? : Text → Nat → Option Edit) :
    editsFrom edit? (ls.flatMap (· ++ ['\n'])).length rest =
      (List.range' (ls.length + 1) rest.length).flatMap fun k => lineEdits t (some k) edit? := by
  induction rest generalizing ls with
  | nil => rfl
  | cons line rest ih =>
    have hmore : lines t = (ls ++ [line]) ++ rest := by rw [h, List.append_assoc, List.singleton_append]
    have hstart : ((ls ++ [line]).flatMap (· ++ ['\n'])).length =
        (ls.flatMap (· ++ ['\n'])).length + line.length + 1 := by
      simp only [List.flatMap_append, List.flatMap_singleton, List.length_append, List.length_singleton]
      omega
    have hbelow := ih hmore
    rw [hstart, List.length_append, List.length_singleton] at hbelow
    rw [editsFrom, hbelow, List.length_cons, List.range'_succ, List.flatMap_cons, lineEdits_of_lines h]

/-- All lines get the edits that each of them gets by its number, those of lines further down first. -/
lemma lineEdits_all (t : Text) (edit? : Text → Nat → Option Edit) :
    lineEdits t none edit? = (List.range' 1 (lines t).length).reverse.flatMap fun k => lineEdits t (some k) edit? := by
  have hwhole : lines t = [] ++ lines t := rfl
  have hfrom := editsFrom_eq_flatMap hwhole edit?
  have hsame : List.reverse ∘ (fun k => lineEdits t (some k) edit?) = fun k => lineEdits t (some k) edit? :=
    funext fun k => reverse_lineEdits t k edit?
  rw [lineEdits, ← hsame, ← List.reverse_flatMap]
  exact congrArg List.reverse hfrom

/-- A line that is edited is one of the lines of the text. -/
lemma exists_lines_of_mem_lineEdits {edit? : Text → Nat → Option Edit} (he : e ∈ lineEdits t (some k) edit?) :
    ∃ ls line rest, lines t = ls ++ line :: rest ∧ k = ls.length + 1 ∧
      edit? line (ls.flatMap (· ++ ['\n'])).length = some e := by
  have hk : ¬ (k = 0 ∨ (lines t).length < k) := fun hout => by
    rw [lineEdits_eq_nil hout] at he
    exact List.not_mem_nil he
  rw [not_or, Nat.not_lt] at hk
  obtain ⟨ls, line, rest, hlines, rfl⟩ := exists_lines_of_number (by omega) hk.2
  rw [lineEdits_of_lines hlines, Option.mem_toList] at he
  exact ⟨ls, line, rest, hlines, rfl, he⟩

end Line

section Place

/-- An edit takes away a part of the line with a number, which stands between two positions. In bytes, the line starts
after the lines before it and one byte for the end of each, as they are when the text is split. -/
structure LiesIn (t : Text) (k start stop : Nat) (e : Edit) : Prop where
  range : lineRange? t k = some (start, stop)
  line : (lines t)[k - 1]? = some (slice t start stop)
  offset : byteOffset t start = (((lines t).take (k - 1)).map fun l => byteSize l + 1).sum
  within : start ≤ e.start ∧ e.start < e.stop ∧ e.stop ≤ stop ∧ stop ≤ t.length
  boundaries : ofByteOffset? t (byteOffset t e.start) = some e.start ∧
    ofByteOffset? t (byteOffset t e.stop) = some e.stop

lemma EditsLines.liesIn {edit? : Text → Nat → Option Edit} (h : EditsLines edit?) (hlines : lines t = ls ++ line :: rest)
    (he : edit? line (ls.flatMap (· ++ ['\n'])).length = some e) :
    LiesIn t (ls.length + 1) (ls.flatMap (· ++ ['\n'])).length
      ((ls.flatMap (· ++ ['\n'])).length + line.length) e := by
  have hline : newlines line = 0 := (lines_spec t).2 line (by rw [hlines]; simp)
  obtain ⟨i, j, r, rfl, hij, hj, _⟩ := h line _ e hline he
  have hstop := le_length_of_lines hlines
  refine ⟨lineRange?_of_lines hlines, ?_, ?_, by simp only; omega, ?_, ?_⟩
  · rw [slice_of_lines hlines, hlines, Nat.add_sub_cancel, List.getElem?_append_right (Nat.le_refl _), Nat.sub_self]
    rfl
  · rw [byteOffset, take_of_lines hlines, byteSize_flatMap, hlines, Nat.add_sub_cancel, List.take_left]
  · exact ofByteOffset?_byteOffset (by simp only; omega)
  · exact ofByteOffset?_byteOffset (by simp only; omega)

end Place

/-- All lines of a text get the edits that each of them gets by its number, those of lines further down first, and there
is no edit for a number that no line has. A line gets one edit at most, of a part of the line and on character
boundaries. -/
theorem lineEdits_by_number (t : Text) (edit? : Text → Nat → Option Edit)
    (h : edit? = trimLine? ∨ edit? = expandLine?) :
    lineEdits t none edit? =
      (List.range' 1 (lines t).length).reverse.flatMap (fun k => lineEdits t (some k) edit?) ∧
    (∀ k, k = 0 ∨ (lines t).length < k → lineEdits t (some k) edit? = []) ∧
    ∀ k, ∀ e ∈ lineEdits t (some k) edit?,
      lineEdits t (some k) edit? = [e] ∧ ∃ start stop, LiesIn t k start stop e := by
  have hedits : EditsLines edit? := by
    rcases h with rfl | rfl
    · exact trimLine?_editsLines
    · exact expandLine?_editsLines
  refine ⟨lineEdits_all t edit?, fun k hk => lineEdits_eq_nil hk edit?, fun k e he => ?_⟩
  obtain ⟨ls, line, rest, hlines, rfl, hedit⟩ := exists_lines_of_mem_lineEdits he
  rw [lineEdits_of_lines hlines, hedit]
  exact ⟨rfl, _, _, hedits.liesIn hlines hedit⟩

/-- Tabs, a wide blank, a carriage return, an empty line and no line end after the last line. -/
theorem lineEdits_by_number_wide :
    let t := "\t\u3000a \t\r\n\n \t\n\tb".toList
    lineEdits t none trimLine? = [⟨8, 10, []⟩, ⟨3, 5, []⟩] ∧
      lineEdits t none expandLine? =
        [⟨11, 12, "    ".toList⟩, ⟨8, 10, "     ".toList⟩, ⟨0, 2, "    \u3000".toList⟩] ∧
      lineEdits t (some 4) expandLine? = [⟨11, 12, "    ".toList⟩] ∧ byteOffset t 11 = 13 ∧
      ∃ start stop, LiesIn t 4 start stop ⟨11, 12, "    ".toList⟩ := by
  intro t
  have hone := (lineEdits_by_number t expandLine? (.inr rfl)).2.2 4 ⟨11, 12, "    ".toList⟩ (by decide +kernel)
  exact ⟨by decide +kernel, by decide +kernel, hone.1, by decide +kernel, hone.2⟩

end Formatting
end Autofix
