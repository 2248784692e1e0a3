import Mathlib.Data.List.DropRight
import Mathlib.Tactic.Common
import Autofix.Text.Blank

/-! Trimming. What is left of a text starts and ends with no blank, so trimming it again leaves it as it is. -/
namespace Autofix
namespace Text
variable {t u : Text}

/-- There is a character at the position, and it is no blank. -/
def Visible (t : Text) (p : Nat) : Prop := ∃ c, (t.drop p).head? = some c ∧ isBlank c = false

lemma Visible.le {p : Nat} (h : Visible t p) : p ≤ t.length := by
  obtain ⟨c, hc, _⟩ := h
  by_contra hlt
  rw [List.drop_eq_nil_of_le (by omega)] at hc
  cases hc

lemma trimStart_eq_self (h : ∀ c, t.head? = some c → isBlank c = false) : trimStart t = t := by
  cases t with
  | nil => rfl
  | cons c rest => rw [trimStart, List.dropWhile_cons_of_neg (by simp [h c rfl])]

lemma trim_blank_append {b : Text} (hb : ∀ c ∈ b, isBlank c = true) (t : Text) : trim (b ++ t) = trim t := by
  rw [trim, trim, trimStart, List.dropWhile_append_of_pos hb, trimStart]

lemma head?_trimStart {c : Char} (h : (trimStart t).head? = some c) : isBlank c = false := by
  have hnot := List.head?_dropWhile_not isBlank t
  rw [show t.dropWhile isBlank = trimStart t from rfl, h] at hnot
  simpa using hnot

/-- What ends with no blank is not trimmed, whatever follows it. -/
lemma prefix_trimEnd (ht : ∀ c, t.getLast? = some c → isBlank c = false) (u : Text) : t <+: trimEnd (t ++ u) := by
  have hkept : t.reverse.dropWhile isBlank = t.reverse :=
    trimStart_eq_self fun c hc => ht c (by rwa [List.head?_reverse] at hc)
  rw [trimEnd, trimEndWhile, List.reverse_append, List.dropWhile_append, hkept]
  split
  · exact ⟨[], by simp⟩
  · rw [List.reverse_append, List.reverse_reverse]
    exact List.prefix_append _ _

lemma trimEnd_prefix (t : Text) : trimEnd t <+: t := List.rdropWhile_prefix isBlank t

theorem trim_trim (t : Text) : trim (trim t) = trim t := by
  have hstart : trimStart (trim t) = trim t := by
    refine trimStart_eq_self fun c hc => ?_
    obtain ⟨rest, hrest⟩ := trimEnd_prefix (trimStart t)
    refine head?_trimStart (t := t) ?_
    rw [← hrest, List.head?_append, show (trimEnd (trimStart t)).head? = some c from hc, Option.some_or]
  rw [trim, hstart]
  exact List.rdropWhile_idempotent isBlank _

theorem trim_eq_nil : trim t = [] ↔ isBlankText t = true := by
  have hend : trim t = (trimStart t).rdropWhile isBlank := rfl
  rw [hend, List.rdropWhile_eq_nil_iff, isBlankText, List.all_eq_true]
  refine ⟨fun h c hc => ?_, fun h c hc => h c ((List.dropWhile_suffix isBlank).subset hc)⟩
  rw [← List.takeWhile_append_dropWhile (p := isBlank) (l := t), List.mem_append] at hc
  exact hc.elim (fun hc => List.mem_takeWhile_imp hc) (h c)

end Text

lemma trimmed_eq_empty {s : String} : trimmed s = "" ↔ isBlankString s = true := by
  rw [trimmed, ← String.toList_inj, String.toList_ofList, isBlankString, ← Text.trim_eq_nil]
  rfl

lemma trimmed_trimmed (s : String) : trimmed (trimmed s) = trimmed s := by
  rw [trimmed, trimmed, String.toList_ofList, Text.trim_trim]

end Autofix
