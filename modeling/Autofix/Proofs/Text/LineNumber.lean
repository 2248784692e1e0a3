import Mathlib.Algebra.GroupWithZero.Nat
import Autofix.Proofs.Text.LineAt

/-! Lines by their numbers. The line with a number is the one that as many lines with their line ends stand before, and
there is a line for each number up to that of the line ends and one more. -/
namespace Autofix.Text
variable {t m line : Text} {ls rest : List Text} {start rows k : Nat}

section Walk

lemma find?_newline (hm : newlines m = 0) (t : Text) : find? ['\n'] (m ++ '\n' :: t) = some m.length := by
  induction m with
  | nil => simp [find?]
  | cons c m ih =>
    rw [newlines_eq_zero, List.forall_mem_cons, ← newlines_eq_zero] at hm
    have hc : ('\n' == c) = false := by
      rw [Bool.beq_comm]
      exact hm.1
    rw [List.cons_append, find?, List.isPrefixOf_cons_cons, hc, Bool.false_and, if_neg Bool.false_ne_true, ih hm.2]
    rfl

lemma lineStartBelow?_append (hflat : ∀ l ∈ ls, newlines l = 0) (front t : Text) :
    lineStartBelow? (front ++ (ls.flatMap (· ++ ['\n']) ++ t)) front.length ls.length =
      some (front.length + (ls.flatMap (· ++ ['\n'])).length) := by
  induction ls generalizing front with
  | nil => rfl
  | cons line rest ih =>
    rw [List.forall_mem_cons] at hflat
    have hfind : find? ['\n'] ((front ++ ((line :: rest).flatMap (· ++ ['\n']) ++ t)).drop front.length) =
        some line.length := by
      rw [List.drop_left, List.flatMap_cons, List.append_assoc, List.append_assoc, List.singleton_append]
      exact find?_newline hflat.1 _
    have hlen : (front ++ (line ++ ['\n'])).length = front.length + line.length + 1 := by
      simp only [List.length_append, List.length_singleton]
      omega
    have hnext := ih hflat.2 (front ++ (line ++ ['\n']))
    rw [hlen] at hnext
    rw [List.length_cons, lineStartBelow?, hfind, Option.bind_eq_bind, Option.bind_some, List.flatMap_cons,
      List.append_assoc _ _ t, ← List.append_assoc front, hnext, List.length_append, List.length_append,
      List.length_singleton]
    simp only [Nat.add_assoc]

/-- There are no more lines to walk over than line ends. -/
lemma lineStartBelow?_eq_none (h : newlines (t.drop start) < rows) : lineStartBelow? t start rows = none := by
  induction rows generalizing start with
  | zero => exact absurd h (Nat.not_lt_zero _)
  | succ rows ih =>
    rw [lineStartBelow?]
    cases hfind : find? ['\n'] (t.drop start) with
    | none => rfl
    | some newline =>
      obtain ⟨_, rest, hrest⟩ := prefix_of_find? hfind
      rw [List.drop_drop] at hrest
      have hnext : t.drop (start + newline + 1) = rest := by
        rw [← List.drop_drop, ← hrest]
        rfl
      have hcount : newlines (t.drop start) = newlines ((t.drop start).take newline) + (1 + newlines rest) := by
        conv_lhs => rw [← List.take_append_drop newline (t.drop start), List.drop_drop, ← hrest, newlines_append,
          newlines_append]
        rfl
      exact ih (by rw [hnext]; omega)

end Walk

section Ranges

lemma endsLine_flatMap (ls : List Text) : EndsLine (ls.flatMap (· ++ ['\n'])) := by
  induction ls with
  | nil => exact .inl rfl
  | cons line rest ih =>
    rw [List.flatMap_cons]
    exact ih.append fun _ => .inr (by simp)

/-- Lines without line ends in them, each followed by one, are the lines of their text. -/
lemma lines_flatMap {ls : List Text} (h : ∀ l ∈ ls, newlines l = 0) :
    lines (ls.flatMap (· ++ ['\n'])) = ls ++ [[]] := by
  induction ls with
  | nil => rfl
  | cons l rest ih =>
    rw [List.forall_mem_cons] at h
    rw [List.flatMap_cons, List.append_assoc, List.singleton_append, lines_append_newline h.1, ih h.2, List.cons_append]

lemma newlines_flatMap (ls : List Text) :
    newlines (ls.flatMap (· ++ ['\n'])) = ls.length + (ls.map newlines).sum := by
  induction ls with
  | nil => rfl
  | cons l rest ih =>
    rw [List.flatMap_cons, newlines_append, newlines_append, ih, List.map_cons, List.sum_cons, List.length_cons,
      show newlines ['\n'] = 1 from rfl]
    omega

lemma join_append (hrest : rest ≠ []) (ls : List Text) :
    join ['\n'] (ls ++ rest) = ls.flatMap (· ++ ['\n']) ++ join ['\n'] rest := by
  induction ls with
  | nil => rfl
  | cons line ls ih =>
    rw [List.cons_append, join_cons (List.append_ne_nil_of_right_ne_nil _ hrest), ih, List.flatMap_cons,
      List.append_assoc (line ++ ['\n'])]

lemma split_of_lines (h : lines t = ls ++ line :: rest) : ∃ back,
    t = ls.flatMap (· ++ ['\n']) ++ line ++ back ∧ (back = [] ∨ back.head? = some '\n') := by
  have hjoin := (lines_spec t).1
  rw [h, join_append (List.cons_ne_nil _ _)] at hjoin
  cases rest with
  | nil => exact ⟨[], by rw [List.append_nil]; exact hjoin.symm, .inl rfl⟩
  | cons next more =>
    refine ⟨'\n' :: join ['\n'] (next :: more), ?_, .inr rfl⟩
    rw [← hjoin, join_cons (List.cons_ne_nil _ _)]
    simp only [List.append_assoc, List.singleton_append]

lemma slice_of_lines (h : lines t = ls ++ line :: rest) :
    slice t (ls.flatMap (· ++ ['\n'])).length ((ls.flatMap (· ++ ['\n'])).length + line.length) = line := by
  obtain ⟨back, ht, _⟩ := split_of_lines h
  rw [ht, slice, List.append_assoc, List.take_length_add_append, List.drop_left, List.take_left]

lemma take_of_lines (h : lines t = ls ++ line :: rest) :
    t.take (ls.flatMap (· ++ ['\n'])).length = ls.flatMap (· ++ ['\n']) := by
  obtain ⟨back, ht, _⟩ := split_of_lines h
  rw [ht, List.append_assoc, List.take_left]

lemma le_length_of_lines (h : lines t = ls ++ line :: rest) :
    (ls.flatMap (· ++ ['\n'])).length + line.length ≤ t.length := by
  obtain ⟨back, ht, _⟩ := split_of_lines h
  rw [ht, List.length_append, List.length_append]
  exact Nat.le_add_right _ _

lemma lineBounds_of_lines (h : lines t = ls ++ line :: rest) :
    lineBounds t (ls.flatMap (· ++ ['\n'])).length =
      ((ls.flatMap (· ++ ['\n'])).length, (ls.flatMap (· ++ ['\n'])).length + line.length) := by
  obtain ⟨back, ht, hback⟩ := split_of_lines h
  have hflat : newlines line = 0 := (lines_spec t).2 line (by rw [h]; simp)
  have hbounds := lineBounds_append (k := 0) (endsLine_flatMap ls) hflat hback (Nat.zero_le _)
  rw [← ht, Nat.add_zero] at hbounds
  rw [lineBounds, hbounds.1, hbounds.2]

theorem lineRange?_of_lines (h : lines t = ls ++ line :: rest) :
    lineRange? t (ls.length + 1) =
      some ((ls.flatMap (· ++ ['\n'])).length, (ls.flatMap (· ++ ['\n'])).length + line.length) := by
  obtain ⟨back, ht, _⟩ := split_of_lines h
  have hflat := (lines_spec t).2
  rw [h, List.forall_mem_append] at hflat
  have hbelow := lineStartBelow?_append hflat.1 [] (line ++ back)
  rw [List.nil_append, List.length_nil, Nat.zero_add, ← List.append_assoc, ← ht] at hbelow
  rw [lineRange?, hbelow, Option.map_some, lineBounds_of_lines h]

lemma length_lines (t : Text) : (lines t).length = newlines t + 1 := by
  induction t with
  | nil => rfl
  | cons c t ih =>
    cases hc : isNewline c with
    | true =>
      obtain rfl : c = '\n' := beq_iff_eq.1 hc
      rw [lines, splitAt_cons_of_sep hc, List.length_cons, ← lines, ih, newlines, newlines, List.count_cons_self]
    | false =>
      obtain ⟨piece, pieces, ht⟩ := List.exists_cons_of_ne_nil (splitAt_ne_nil isNewline t)
      rw [lines, ht] at ih
      rw [lines, splitAt_cons_of_not_sep hc ht, List.length_cons, ← List.length_cons (a := piece), ih, newlines,
        newlines, List.count_cons_of_ne (by simpa [isNewline] using hc)]

/-- A number of a line splits the lines at this line. -/
lemma exists_lines_of_number (hk : 1 ≤ k) (hle : k ≤ (lines t).length) :
    ∃ ls line rest, lines t = ls ++ line :: rest ∧ k = ls.length + 1 := by
  have hlt : k - 1 < (lines t).length := by omega
  refine ⟨(lines t).take (k - 1), (lines t)[k - 1], (lines t).drop (k - 1 + 1), ?_, ?_⟩
  · rw [List.getElem_cons_drop, List.take_append_drop]
  · rw [List.length_take_of_le hlt.le]
    omega

theorem lineRange?_eq_none (h : k = 0 ∨ (lines t).length < k) : lineRange? t k = none := by
  cases k with
  | zero => rfl
  | succ row =>
    rw [length_lines] at h
    rw [lineRange?, lineStartBelow?_eq_none (by rw [List.drop_zero]; omega), Option.map_none]

end Ranges
end Autofix.Text
