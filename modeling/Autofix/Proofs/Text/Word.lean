import Autofix.Proofs.Path
import Autofix.Text.Blank

/-! Words and blanks. A blank ends a word, so the blanks between two words can be replaced by others without any
difference to the words; and the words one after another are all the ink of a text. -/
namespace Autofix.Text
variable {a b c t : Text} {s : Char}

/-- The characters that are no blanks, in order. -/
def ink (t : Text) : Text := t.filter fun c => !isBlank c

@[simp] lemma ink_append (a b : Text) : ink (a ++ b) = ink a ++ ink b := List.filter_append ..

lemma ink_eq_nil : ink t = [] ↔ isBlankText t = true := by
  simp [ink, isBlankText]

lemma words_append_blank (hs : isBlank s = true) (a b : Text) : words (a ++ s :: b) = words a ++ words b := by
  rw [words, splitAt_append hs, List.filter_append]
  rfl

lemma words_cons_blank (hs : isBlank s = true) (t : Text) : words (s :: t) = words t := words_append_blank hs [] t

lemma words_blank_append (hb : isBlankText b = true) (c : Text) : words (b ++ c) = words c := by
  induction b with
  | nil => rfl
  | cons s b ih =>
    rw [isBlankText, List.all_cons, Bool.and_eq_true] at hb
    rw [List.cons_append, words_cons_blank hb.1]
    exact ih hb.2

/-- Blanks between two texts keep their words apart, and no blanks do if the second text starts with one. -/
theorem words_around_blank (hb : isBlankText b = true) (h : b = [] → ∀ s, c.head? = some s → isBlank s = true) :
    words (a ++ b ++ c) = words a ++ words c := by
  cases b with
  | cons s b =>
    rw [isBlankText, List.all_cons, Bool.and_eq_true] at hb
    rw [List.append_assoc, List.cons_append, words_append_blank hb.1, words_blank_append hb.2]
  | nil =>
    rw [List.append_nil]
    cases c with
    | nil => simp [words, splitAt]
    | cons s c =>
      have hs := h rfl s rfl
      rw [words_append_blank hs, words_cons_blank hs]

lemma flatten_splitAt (sep : Char → Bool) (t : Text) : (splitAt sep t).flatten = t.filter fun c => !sep c := by
  induction t with
  | nil => rfl
  | cons c t ih =>
    cases hc : sep c with
    | true => simp [splitAt_cons_of_sep hc, ih, hc]
    | false =>
      obtain ⟨piece, pieces, ht⟩ := List.exists_cons_of_ne_nil (splitAt_ne_nil sep t)
      rw [ht] at ih
      rw [splitAt_cons_of_not_sep hc ht, List.filter_cons_of_pos (by simp [hc]), ← ih]
      rfl

theorem flatten_words (t : Text) : (words t).flatten = ink t := by
  rw [words, List.flatten_filter_not_isEmpty, flatten_splitAt, ink]

end Autofix.Text
