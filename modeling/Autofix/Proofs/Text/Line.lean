import Mathlib.Data.List.DropRight
import Mathlib.Tactic.Common
import Autofix.Text.Line

/-! Stretches of a text, its line starts and line ends, and first occurrences. A line starts at a position
when the text before it is empty or ends with a line end. -/
namespace Autofix.Text

section Slices
variable (t : Text) {p q r : Nat}

lemma take_append_slice (h : p ≤ q) : t.take p ++ slice t p q = t.take q := by
  have hsplit := List.take_append_drop p (t.take q)
  rwa [List.take_take, Nat.min_eq_left h] at hsplit

lemma slice_append_slice (h : p ≤ q) (h' : q ≤ r) : slice t p q ++ slice t q r = slice t p r := by
  have hpr : t.take p ++ slice t p r = t.take p ++ (slice t p q ++ slice t q r) := by
    rw [take_append_slice t (Nat.le_trans h h'), ← List.append_assoc, take_append_slice t h, take_append_slice t h']
  exact (List.append_cancel_left hpr).symm

lemma slice_append_drop (h : p ≤ q) : slice t p q ++ t.drop q = t.drop p := by
  have hp : t.take p ++ (slice t p q ++ t.drop q) = t.take p ++ t.drop p := by
    rw [← List.append_assoc, take_append_slice t h, List.take_append_drop, List.take_append_drop]
  exact List.append_cancel_left hp

lemma slice_self : slice t p p = [] := by simp [slice]

lemma length_slice (h : q ≤ t.length) : (slice t p q).length = q - p := by
  simp [slice, Nat.min_eq_left h]

lemma slice_ne_nil (h : p < q) (hq : q ≤ t.length) : slice t p q ≠ [] := by
  intro hnil
  have hlen := length_slice t (p := p) hq
  rw [hnil, List.length_nil] at hlen
  omega

lemma take_add_of_slice_eq {a b : Text} (h : p ≤ q) (hq : q ≤ t.length) (hs : slice t p q = a ++ b) :
    t.take (p + a.length) = t.take p ++ a := by
  have hle : p + a.length ≤ q := by
    have := length_slice t (p := p) hq
    rw [hs, List.length_append] at this
    omega
  have htake : t.take (p + a.length) = (t.take q).take (p + a.length) := by
    rw [List.take_take, Nat.min_eq_left hle]
  have hp : (t.take p).length = p := List.length_take_of_le (Nat.le_trans h hq)
  rw [htake, ← take_append_slice t h, hs, ← List.append_assoc]
  exact List.take_left' (by rw [List.length_append, hp])

lemma slice_take (h : q ≤ r) : slice (t.take r) p q = slice t p q := by
  simp [slice, List.take_take, Nat.min_eq_left h]

end Slices

section Newlines

lemma newlines_append (a b : Text) : newlines (a ++ b) = newlines a + newlines b := List.count_append

lemma newlines_take_le (t : Text) {p q : Nat} (h : p ≤ q) : newlines (t.take p) ≤ newlines (t.take q) := by
  rw [← take_append_slice t h, newlines_append]
  exact Nat.le_add_right _ _

lemma lineOf_pos (t : Text) (p : Nat) : 0 < lineOf t p := Nat.succ_pos _

lemma lineOf_le (t : Text) {p q : Nat} (h : p ≤ q) : lineOf t p ≤ lineOf t q :=
  Nat.add_le_add_right (newlines_take_le t h) 1

lemma lineOf_le_succ_newlines (t : Text) (p : Nat) : lineOf t p ≤ newlines t + 1 := by
  have hp := newlines_take_le t (Nat.le_max_left p t.length)
  rw [List.take_of_length_le (Nat.le_max_right _ _)] at hp
  exact Nat.add_le_add_right hp 1

/-- The text is empty or ends with a line end. -/
def EndsLine (t : Text) : Prop := t = [] ∨ t.getLast? = some '\n'

instance (t : Text) : Decidable (EndsLine t) := inferInstanceAs (Decidable (_ ∨ _))

lemma EndsLine.append {a b : Text} (hb : EndsLine b) (ha : b = [] → EndsLine a) : EndsLine (a ++ b) := by
  rcases hb with rfl | hb
  · simpa using ha rfl
  · exact .inr (by simp [List.getLast?_append, hb])

lemma EndsLine.getLast?_eq {a b : Text} (h : EndsLine (a ++ b)) (hb : b ≠ []) : b.getLast? = some '\n' := by
  rcases h with h | h
  · exact absurd (List.append_eq_nil_iff.1 h).2 hb
  · rw [List.getLast?_append] at h
    cases hlast : b.getLast? with
    | none => exact absurd (List.getLast?_eq_none_iff.1 hlast) hb
    | some c => simpa [hlast] using h

lemma EndsLine.of_append {a b : Text} (h : EndsLine (a ++ b)) : EndsLine b := by
  by_cases hb : b = []
  · exact .inl hb
  · exact .inr (h.getLast?_eq hb)

lemma newlines_pos_of_getLast? {t : Text} (h : t.getLast? = some '\n') : 0 < newlines t :=
  List.count_pos_iff.2 (List.mem_of_getLast? h)

/-- A text without its final line ends is the text itself, or line ends are missing. -/
lemma trimEndWhile_cases (t : Text) :
    (trimEndWhile (· == '\n') t = t ∧ t.getLast? ≠ some '\n') ∨
      ∃ tail, trimEndWhile (· == '\n') t ++ tail = t ∧ 0 < newlines tail := by
  by_cases hlast : t.getLast? = some '\n'
  · refine .inr ⟨(t.reverse.takeWhile (· == '\n')).reverse, ?_, newlines_pos_of_getLast? ?_⟩
    · rw [trimEndWhile, ← List.reverse_append, List.takeWhile_append_dropWhile, List.reverse_reverse]
    · rw [List.getLast?_reverse, List.head?_takeWhile, List.head?_reverse, hlast]
      rfl
  · refine .inl ⟨?_, hlast⟩
    refine List.rdropWhile_eq_self_iff.2 fun hne hc => hlast ?_
    rw [List.getLast?_eq_some_getLast hne, beq_iff_eq.1 hc]

end Newlines

section Bounds

lemma endsLine_reverse_dropWhile (t : Text) : EndsLine (t.reverse.dropWhile fun c => !isNewline c).reverse := by
  cases h : t.reverse.dropWhile fun c => !isNewline c with
  | nil => exact .inl rfl
  | cons c u =>
    have hc := List.head?_dropWhile_not (fun c => !isNewline c) t.reverse
    rw [h] at hc
    exact .inr (by simpa [isNewline] using hc)

lemma take_lineStart (t : Text) (p : Nat) :
    t.take (lineStart t p) = ((t.take p).reverse.dropWhile fun c => !isNewline c).reverse := by
  have hsplit : ((t.take p).reverse.dropWhile fun c => !isNewline c).reverse ++
      ((t.take p).reverse.takeWhile fun c => !isNewline c).reverse = t.take p := by
    rw [← List.reverse_append, List.takeWhile_append_dropWhile, List.reverse_reverse]
  have hlen : lineStart t p = ((t.take p).reverse.dropWhile fun c => !isNewline c).reverse.length := by
    have := congrArg List.length hsplit
    simp only [List.length_append, List.length_reverse] at this
    simp only [lineStart, List.length_reverse]
    omega
  have htake : t.take (lineStart t p) = (t.take p).take (lineStart t p) := by
    rw [List.take_take, Nat.min_eq_left (lineStart_le t p)]
  rw [htake, hlen]
  exact (congrArg (List.take _) hsplit.symm).trans List.take_left

theorem endsLine_take_lineStart (t : Text) (p : Nat) : EndsLine (t.take (lineStart t p)) := by
  rw [take_lineStart]
  exact endsLine_reverse_dropWhile _

theorem endsLine_take_previousLineStart (t : Text) (p : Nat) : EndsLine (t.take (previousLineStart t p)) := by
  unfold previousLineStart
  dsimp only
  split
  · exact endsLine_take_lineStart t p
  · exact endsLine_take_lineStart t _

lemma le_lineEnd {t : Text} {p : Nat} (h : p ≤ t.length) : p ≤ lineEnd t p := by
  simp only [lineEnd, List.length_take]
  omega

lemma drop_lineEnd {t : Text} {p : Nat} (h : p ≤ t.length) :
    t.drop (lineEnd t p) = (t.drop p).dropWhile fun c => !isNewline c := by
  have hsplit := List.takeWhile_append_dropWhile (p := fun c => !isNewline c) (l := t.drop p)
  rw [lineEnd, List.length_take, Nat.min_eq_left h, ← List.drop_drop]
  exact (congrArg (List.drop _) hsplit.symm).trans List.drop_left

lemma slice_lineEnd {t : Text} {p : Nat} (h : p ≤ t.length) :
    slice t p (lineEnd t p) = (t.drop p).takeWhile fun c => !isNewline c := by
  have hsplit := List.takeWhile_append_dropWhile (p := fun c => !isNewline c) (l := t.drop p)
  have hslice := slice_append_drop t (le_lineEnd h)
  rw [drop_lineEnd h] at hslice
  exact List.append_cancel_right (hslice.trans hsplit.symm)

lemma lineEnd_le {t : Text} {p : Nat} (h : p ≤ t.length) : lineEnd t p ≤ t.length := by
  have := (List.takeWhile_prefix (fun c => !isNewline c) (l := t.drop p)).length_le
  simp only [lineEnd, List.length_take, List.length_drop] at this ⊢
  omega

theorem drop_lineEnd_cases {t : Text} {p : Nat} (h : p ≤ t.length) :
    t.drop (lineEnd t p) = [] ∨ (t.drop (lineEnd t p)).head? = some '\n' := by
  rw [drop_lineEnd h]
  cases hd : (t.drop p).dropWhile fun c => !isNewline c with
  | nil => exact .inl rfl
  | cons c u =>
    have hc := List.head?_dropWhile_not (fun c => !isNewline c) (t.drop p)
    rw [hd] at hc
    exact .inr (by simpa [isNewline] using hc)

end Bounds

/-- A text that occurs at a position has a first occurrence there or before. -/
theorem find?_of_prefix {needle t : Text} {p : Nat} (hp : p ≤ t.length) (h : needle <+: t.drop p) :
    ∃ f, find? needle t = some f ∧ f ≤ p := by
  induction t generalizing p with
  | nil =>
    obtain rfl : needle = [] := by simpa using h
    exact ⟨0, by simp [find?], Nat.zero_le _⟩
  | cons c rest ih =>
    rw [find?]
    split
    · exact ⟨0, rfl, Nat.zero_le _⟩
    · next hn =>
      cases p with
      | zero => exact absurd (List.isPrefixOf_iff_prefix.2 (by simpa using h)) hn
      | succ p =>
        obtain ⟨f, hf, hle⟩ := ih (by simpa using hp) (by simpa using h)
        exact ⟨f + 1, by simp [hf], by omega⟩

/-- On the line that starts at a position, nothing stands before it. -/
theorem eq_of_lineOf_eq {t : Text} {f p : Nat} (hf : f ≤ p) (hp : p ≤ t.length) (hstart : EndsLine (t.take p))
    (hline : lineOf t f = lineOf t p) : f = p := by
  by_contra hne
  have hslice : slice t f p ≠ [] := slice_ne_nil t (by omega) hp
  rw [← take_append_slice t hf] at hstart
  have hpos := newlines_pos_of_getLast? (hstart.getLast?_eq hslice)
  simp only [lineOf] at hline
  rw [← take_append_slice t hf, newlines_append] at hline
  omega

end Autofix.Text
