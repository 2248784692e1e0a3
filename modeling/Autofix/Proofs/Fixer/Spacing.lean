import Autofix.Proofs.Fixer.LineEdits
import Autofix.Proofs.Text.Word

/-! Edits of spacing. The formatting fixer replaces blanks by blanks, at a place where a blank or the end of the text
keeps the words apart, so the texts of its changes have the same words however far an anchor is widened. -/
namespace Autofix
open Text

namespace Edit
variable {t a m b : Text} {e : Edit}

/-- The edit replaces something by something else. -/
def Alters (t : Text) (e : Edit) : Prop := slice t e.start e.stop ≠ e.replacement

/-- The two texts of a change are the two texts of its edit, between a beginning and an end that they share. -/
theorem toChange_texts (path : String) (h : e.Fits t) : ∃ front back, back <+: t.drop e.stop ∧
    (e.toChange path t).expected.toList = front ++ slice t e.start e.stop ++ back ∧
      (e.toChange path t).replacement.toList = front ++ e.replacement ++ back := by
  obtain ⟨hstart, hstop, _⟩ := anchored_bounds h
  refine ⟨slice t (e.anchored t).start e.start, slice t e.stop (e.anchored t).stop, ?_, ?_, ?_⟩
  · exact ⟨_, slice_append_drop t hstop⟩
  · rw [toChange_eq, slice_append_slice t hstart h.le, slice_append_slice t (hstart.trans h.le) hstop]
    exact String.toList_ofList
  · rw [toChange_eq]
    exact String.toList_ofList

lemma expected_ne_replacement (path : String) (h : e.Fits t) (halters : e.Alters t) :
    (e.toChange path t).expected ≠ (e.toChange path t).replacement := by
  obtain ⟨front, back, _, hexpected, hreplacement⟩ := toChange_texts path h
  intro heq
  rw [heq, hreplacement] at hexpected
  exact halters (List.append_cancel_left (List.append_cancel_right hexpected)).symm

lemma Loses.alters (hfits : e.Fits t) (h : e.Loses t) : e.Alters t := by
  intro hsame
  have happly : e.apply t = t := by
    rw [apply, splice, ← hsame, take_append_slice t hfits.le, List.take_append_drop]
  rw [Loses, happly] at h
  exact h List.infix_rfl

/-- The edit replaces blanks by blanks, and where one of them is nothing at all a blank or the end of the text
follows. -/
structure Respaces (t : Text) (e : Edit) : Prop where
  old : isBlankText (slice t e.start e.stop) = true
  new : isBlankText e.replacement = true
  apart : slice t e.start e.stop = [] ∨ e.replacement = [] → ∀ s, (t.drop e.stop).head? = some s → isBlank s = true

/-- An edit of spacing keeps the words of the text that its change expects. -/
theorem Respaces.words_toChange (path : String) (hfits : e.Fits t) (h : e.Respaces t) :
    words (e.toChange path t).expected.toList = words (e.toChange path t).replacement.toList := by
  obtain ⟨front, back, hback, hexpected, hreplacement⟩ := toChange_texts path hfits
  have hnext : ∀ {s}, back.head? = some s → (t.drop e.stop).head? = some s := fun hs => by
    obtain ⟨rest, hrest⟩ := hback
    rw [← hrest, List.head?_append, hs, Option.some_or]
  rw [hexpected, hreplacement, words_around_blank h.old fun hnil s hs => h.apart (.inl hnil) s (hnext hs),
    words_around_blank h.new fun hnil s hs => h.apart (.inr hnil) s (hnext hs)]

lemma slice_append_line (front line back : Text) {i k : Nat} (hk : k ≤ line.length) :
    slice (front ++ line ++ back) (front.length + i) (front.length + k) = (line.take k).drop i := by
  rw [slice, List.append_assoc, List.take_length_add_append, List.drop_length_add_append,
    List.take_append_of_le_length hk]

lemma Respaces.append {i j : Nat} {r : Text} (h : Respaces m ⟨i, j, r⟩) (hj : j ≤ m.length)
    (hb : b = [] ∨ b.head? = some '\n') : Respaces (a ++ m ++ b) ⟨a.length + i, a.length + j, r⟩ := by
  have hslice := slice_append_line a m b (i := i) hj
  refine ⟨hslice ▸ h.old, h.new, fun hnil s hs => ?_⟩
  rw [hslice] at hnil
  rw [List.append_assoc, List.drop_length_add_append, List.drop_append_of_le_length hj, List.head?_append] at hs
  cases hline : (m.drop j).head? with
  | some u =>
    rw [hline, Option.some_or] at hs
    exact h.apart hnil s (hline.trans hs)
  | none =>
    rw [hline, Option.none_or] at hs
    rcases hb with rfl | hb
    · cases hs
    · obtain rfl := Option.some.inj (hb.symm.trans hs)
      decide

end Edit

namespace Formatting
open Edit
variable {t : Text} {e : Edit} {edit? : Text → Nat → Option Edit}

/-- What is made of a line is an edit of its spacing. -/
def RespacesLines (edit? : Text → Nat → Option Edit) : Prop :=
  ∀ (line : Text) (start : Nat) (e : Edit), edit? line start = some e →
    ∃ i j r, e = ⟨start + i, start + j, r⟩ ∧ j ≤ line.length ∧ Respaces line ⟨i, j, r⟩

/-- Only a carriage return is left out of the body of a line. -/
lemma isBlank_after_lineBody {line : Text} {s : Char} (h : (line.drop (lineBody line).length).head? = some s) :
    isBlank s = true := by
  rw [lineBody] at h
  split at h
  · next hlast =>
    obtain ⟨body, rfl⟩ := List.getLast?_eq_some_iff.1 hlast
    rw [List.dropLast_concat, List.drop_left] at h
    obtain rfl := Option.some.inj h
    decide
  · rw [List.drop_length] at h
    cases h

lemma isBlankText_trimmed (body : Text) :
    isBlankText (body.drop (trimEndWhile (fun c => c == ' ' || c == '\t') body).length) = true := by
  have hsplit := List.rdropWhile_append_rtakeWhile (p := fun c => c == ' ' || c == '\t') (l := body)
  have hdrop : body.drop (trimEndWhile (fun c => c == ' ' || c == '\t') body).length =
      body.rtakeWhile fun c => c == ' ' || c == '\t' := (congrArg (List.drop _) hsplit.symm).trans List.drop_left
  rw [hdrop, isBlankText, List.all_eq_true]
  intro c hc
  have hpadding : (c == ' ' || c == '\t') = true :=
    List.mem_rtakeWhile_imp (p := fun c => c == ' ' || c == '\t') hc
  rw [Bool.or_eq_true, beq_iff_eq, beq_iff_eq] at hpadding
  rcases hpadding with rfl | rfl <;> decide

lemma trimLine?_respacesLines : RespacesLines trimLine? := by
  intro line start e he
  simp only [trimLine?, Option.ite_none_right_eq_some] at he
  have hbegins := prefix_lineBody line
  refine ⟨_, _, [], (Option.some.inj he.2).symm, hbegins.length_le, ?_, rfl, fun _ s => isBlank_after_lineBody⟩
  rw [slice, ← List.prefix_iff_eq_take.1 hbegins]
  exact isBlankText_trimmed _

lemma isBlank_of_mem_expandTabs {t : Text} (h : ∀ c ∈ t, isBlank c = true) : ∀ c ∈ expandTabs t, isBlank c = true := by
  intro c hc
  obtain ⟨d, hd, hc⟩ := List.mem_flatMap.1 hc
  split at hc
  · obtain rfl : c = ' ' := by simpa using hc
    decide
  · rw [List.mem_singleton.1 hc]
    exact h d hd

lemma expandLine?_respacesLines : RespacesLines expandLine? := by
  intro line start e he
  simp only [expandLine?, Option.ite_none_right_eq_some] at he
  obtain ⟨htab, he⟩ := he
  have htab : '\t' ∈ indentation line := by simpa using htab
  have hbegins : indentation line <+: line := List.takeWhile_prefix _
  have hblank : ∀ c ∈ indentation line, isBlank c = true := fun c hc => List.mem_takeWhile_imp hc
  have hslice : slice line 0 (indentation line).length = indentation line := by
    rw [slice, ← List.prefix_iff_eq_take.1 hbegins, List.drop_zero]
  refine ⟨0, _, _, (Option.some.inj he).symm, hbegins.length_le, ?_,
    List.all_eq_true.2 (isBlank_of_mem_expandTabs hblank), fun hnil => ?_⟩
  · rw [hslice]
    exact List.all_eq_true.2 hblank
  rcases hnil with hnil | hnil
  · rw [hslice] at hnil
    rw [hnil] at htab
    cases htab
  · have hfour : ' ' ∈ expandTabs (indentation line) := List.mem_flatMap.2 ⟨'\t', htab, by simp⟩
    rw [show expandTabs (indentation line) = [] from hnil] at hfour
    cases hfour

lemma exists_line_of_mem_lineEdits {line : Option Nat} (he : e ∈ lineEdits t line edit?) :
    ∃ a m b, t = a ++ m ++ b ∧ (b = [] ∨ b.head? = some '\n') ∧ edit? m a.length = some e := by
  obtain ⟨k, he⟩ : ∃ k, e ∈ lineEdits t (some k) edit? := by
    cases line with
    | none =>
      rw [lineEdits_all, List.mem_flatMap] at he
      obtain ⟨k, _, he⟩ := he
      exact ⟨k, he⟩
    | some k => exact ⟨k, he⟩
  obtain ⟨ls, m, rest, hlines, _, he⟩ := exists_lines_of_mem_lineEdits he
  obtain ⟨b, ht, hb⟩ := split_of_lines hlines
  exact ⟨_, m, b, ht, hb, he⟩

theorem RespacesLines.lineEdits (h : RespacesLines edit?) {line : Option Nat}
    (he : e ∈ Formatting.lineEdits t line edit?) : e.Respaces t := by
  obtain ⟨a, m, b, rfl, hb, he⟩ := exists_line_of_mem_lineEdits he
  obtain ⟨i, j, r, rfl, hj, hline⟩ := h m a.length e he
  exact hline.append hj hb

lemma respaces_newline (t : Text) : Respaces t ⟨t.length, t.length, ['\n']⟩ where
  old := by
    rw [slice_self]
    rfl
  new := rfl
  apart _ s hs := by
    rw [List.drop_length] at hs
    cases hs

end Formatting
end Autofix
