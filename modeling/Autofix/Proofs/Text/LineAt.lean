import Autofix.Proofs.Path
import Autofix.Proofs.Text.Line

/-! The lines of a text by their positions and in order, and where a text is found first. -/
namespace Autofix.Text

def lineAt (t : Text) (p : Nat) : Text := slice t (lineStart t p) (lineEnd t p)

/-- A line of a text from one position to another: no line end stands in it, the text starts or a line end stands right
before it, and the text ends or a line end stands right after it. -/
structure IsLine (t : Text) (start stop : Nat) : Prop where
  le : start ≤ stop
  inside : stop ≤ t.length
  flat : newlines (slice t start stop) = 0
  opens : start = 0 ∨ t[start - 1]? = some '\n'
  closes : stop = t.length ∨ t[stop]? = some '\n'

section LineAt
variable {t a b m n : Text} {p q start stop : Nat}

lemma newlines_eq_zero : newlines t = 0 ↔ ∀ c ∈ t, isNewline c = false := by
  rw [newlines, List.count_eq_zero]
  simp only [isNewline, beq_eq_false_iff_ne]
  grind

lemma newlines_of_sublist (h : a.Sublist b) (hb : newlines b = 0) : newlines a = 0 :=
  Nat.eq_zero_of_le_zero (hb ▸ h.count_le '\n')

lemma newlines_slice_lineStart (t : Text) (p : Nat) : newlines (slice t (lineStart t p) p) = 0 := by
  have hsplit : ((t.take p).reverse.dropWhile fun c => !isNewline c).reverse ++
      ((t.take p).reverse.takeWhile fun c => !isNewline c).reverse =
        ((t.take p).reverse.dropWhile fun c => !isNewline c).reverse ++ slice t (lineStart t p) p := by
    rw [← List.reverse_append, List.takeWhile_append_dropWhile, List.reverse_reverse, ← take_lineStart,
      take_append_slice t (lineStart_le t p)]
  rw [newlines_eq_zero, ← List.append_cancel_left hsplit]
  intro c hc
  simpa using List.mem_takeWhile_imp (List.mem_reverse.1 hc)

lemma newlines_slice_lineEnd (hp : p ≤ t.length) : newlines (slice t p (lineEnd t p)) = 0 := by
  rw [newlines_eq_zero, slice_lineEnd hp]
  intro c hc
  simpa using List.mem_takeWhile_imp hc

lemma lineOf_lineStart (t : Text) (p : Nat) : lineOf t (lineStart t p) = lineOf t p := by
  rw [lineOf, lineOf, ← take_append_slice t (lineStart_le t p), newlines_append, newlines_slice_lineStart, Nat.add_zero]

lemma lineOf_lineEnd (hp : p ≤ t.length) : lineOf t (lineEnd t p) = lineOf t p := by
  rw [lineOf, lineOf, ← take_append_slice t (le_lineEnd hp), newlines_append, newlines_slice_lineEnd hp, Nat.add_zero]

lemma newlines_lineAt (hp : p ≤ t.length) : newlines (lineAt t p) = 0 := by
  rw [lineAt, ← slice_append_slice t (lineStart_le t p) (le_lineEnd hp), newlines_append, newlines_slice_lineStart,
    newlines_slice_lineEnd hp]

lemma split_lineAt (hp : p ≤ t.length) : t.take (lineStart t p) ++ lineAt t p ++ t.drop (lineEnd t p) = t := by
  rw [lineAt, take_append_slice t ((lineStart_le t p).trans (le_lineEnd hp)), List.take_append_drop]

lemma length_lineAt (hp : p ≤ t.length) : lineStart t p + (lineAt t p).length = lineEnd t p := by
  have hle := (lineStart_le t p).trans (le_lineEnd hp)
  rw [lineAt, length_slice t (lineEnd_le hp)]
  omega

/-- A stretch between two line ends is the line that holds each of its positions. -/
lemma lineBounds_append (ha : EndsLine a) (hm : newlines m = 0) (hb : b = [] ∨ b.head? = some '\n') {k : Nat}
    (hk : k ≤ m.length) : lineStart (a ++ m ++ b) (a.length + k) = a.length ∧
      lineEnd (a ++ m ++ b) (a.length + k) = a.length + m.length := by
  have hflat := newlines_eq_zero.1 hm
  have htake : (a ++ m ++ b).take (a.length + k) = a ++ m.take k := by
    rw [List.append_assoc, List.take_length_add_append, List.take_append_of_le_length hk]
  have hdrop : (a ++ m ++ b).drop (a.length + k) = m.drop k ++ b := by
    rw [List.append_assoc, List.drop_length_add_append, List.drop_append_of_le_length hk]
  have hback : ∀ c ∈ (m.take k).reverse, (!isNewline c) = true := fun c hc => by
    simp [hflat c (List.mem_of_mem_take (List.mem_reverse.1 hc))]
  have hfront : ∀ c ∈ m.drop k, (!isNewline c) = true := fun c hc => by
    simp [hflat c (List.mem_of_mem_drop hc)]
  have hstart : a.reverse.takeWhile (fun c => !isNewline c) = [] := by
    rcases ha with rfl | hlast
    · rfl
    · rw [← List.head?_reverse] at hlast
      cases hrev : a.reverse with
      | nil => rfl
      | cons c rest => simp_all [isNewline]
  have hend : b.takeWhile (fun c => !isNewline c) = [] := by
    rcases hb with rfl | hhead
    · rfl
    · cases b with
      | nil => rfl
      | cons c rest => simp_all [isNewline]
  rw [lineStart, lineEnd, htake, hdrop, List.reverse_append, List.takeWhile_append_of_pos hback, hstart,
    List.takeWhile_append_of_pos hfront, hend]
  simp
  omega

lemma endsLine_take_iff (hp : p ≤ t.length) : EndsLine (t.take p) ↔ p = 0 ∨ t[p - 1]? = some '\n' := by
  cases p with
  | zero => simp [EndsLine]
  | succ q =>
    have hq : q < t.length := hp
    have hne : t ≠ [] := List.ne_nil_of_length_pos (by omega)
    simp [EndsLine, List.getLast?_take, List.getElem?_eq_getElem hq, hne]

lemma drop_cases_iff (hp : p ≤ t.length) :
    t.drop p = [] ∨ (t.drop p).head? = some '\n' ↔ p = t.length ∨ t[p]? = some '\n' := by
  rw [List.drop_eq_nil_iff, List.head?_drop, Nat.le_antisymm_iff, and_iff_right hp]

lemma isLine_lineBounds (hp : p ≤ t.length) : IsLine t (lineStart t p) (lineEnd t p) where
  le := (lineStart_le t p).trans (le_lineEnd hp)
  inside := lineEnd_le hp
  flat := newlines_lineAt hp
  opens := (endsLine_take_iff ((lineStart_le t p).trans hp)).1 (endsLine_take_lineStart t p)
  closes := (drop_cases_iff (lineEnd_le hp)).1 (drop_lineEnd_cases hp)

/-- A line holds all positions from its start to its end. -/
lemma IsLine.lineBounds_eq (h : IsLine t start stop) (hstart : start ≤ p) (hstop : p ≤ stop) :
    lineBounds t p = (start, stop) := by
  have hle := h.le.trans h.inside
  have hlen := length_slice t (p := start) h.inside
  have hbounds := lineBounds_append (k := p - start) ((endsLine_take_iff hle).2 h.opens) h.flat
    ((drop_cases_iff h.inside).2 h.closes) (by omega)
  rw [take_append_slice t h.le, List.take_append_drop, List.length_take_of_le hle, hlen, Nat.add_sub_cancel' hstart,
    Nat.add_sub_cancel' h.le] at hbounds
  rw [lineBounds, hbounds.1, hbounds.2]

theorem lineBounds_eq_iff (hp : p ≤ t.length) :
    lineBounds t p = (start, stop) ↔ IsLine t start stop ∧ start ≤ p ∧ p ≤ stop := by
  constructor
  · rintro h
    obtain ⟨rfl, rfl⟩ := Prod.mk.inj h
    exact ⟨isLine_lineBounds hp, lineStart_le t p, le_lineEnd hp⟩
  · rintro ⟨h, hstart, hstop⟩
    exact h.lineBounds_eq hstart hstop

lemma lineAt_append (ha : EndsLine a) (hm : newlines m = 0) (hb : b = [] ∨ b.head? = some '\n') {k : Nat}
    (hk : k ≤ m.length) : lineAt (a ++ m ++ b) (a.length + k) = m := by
  obtain ⟨hstart, hend⟩ := lineBounds_append ha hm hb hk
  rw [lineAt, hstart, hend, slice, List.append_assoc, List.take_length_add_append, List.drop_left]
  exact List.take_left

/-- The line of a position does not depend on the lines before it. -/
lemma lineAt_append_right (ha : EndsLine a) (hp : p ≤ b.length) : lineAt (a ++ b) (a.length + p) = lineAt b p := by
  have hle := lineStart_le b p
  have hlen := length_lineAt hp
  have hend := le_lineEnd hp
  have hfront : EndsLine (a ++ b.take (lineStart b p)) := (endsLine_take_lineStart b p).append fun _ => ha
  have hstart : (a ++ b.take (lineStart b p)).length = a.length + lineStart b p := by
    rw [List.length_append, List.length_take_of_le (by omega)]
  have hline := lineAt_append (k := p - lineStart b p) hfront (newlines_lineAt hp) (drop_lineEnd_cases hp) (by omega)
  rw [List.append_assoc, List.append_assoc, ← List.append_assoc (b.take _), split_lineAt hp, hstart] at hline
  rwa [show a.length + p = a.length + lineStart b p + (p - lineStart b p) by omega]

/-- Positions with the same number of line ends before them stand in the same line: the line end that closes the
line of `p` would be counted for `q` and not for `p`. -/
lemma lineBounds_of_lineOf_eq (hpq : p ≤ q) (hq : q ≤ t.length) (h : lineOf t p = lineOf t q) :
    lineStart t q = lineStart t p ∧ lineEnd t q = lineEnd t p := by
  have hp := hpq.trans hq
  have hend : q ≤ lineEnd t p := by
    by_contra hlt
    have hstep := newlines_take_le t (p := lineEnd t p + 1) (q := q) (by omega)
    have hle := newlines_take_le t (le_lineEnd hp)
    rcases drop_lineEnd_cases hp with hnil | hhead
    · have := List.drop_eq_nil_iff.1 hnil
      omega
    · rw [List.take_add_one, ← List.head?_drop, hhead, newlines_append] at hstep
      simp only [lineOf] at h
      simp [newlines] at hstep h hle
      omega
  exact Prod.mk.inj ((isLine_lineBounds hp).lineBounds_eq ((lineStart_le t p).trans hpq) hend)

lemma lineBounds_congr (hp : p ≤ t.length) (hq : q ≤ t.length) (h : lineOf t p = lineOf t q) :
    lineBounds t p = lineBounds t q := by
  rcases Nat.le_total p q with hpq | hqp
  · obtain ⟨hstart, hend⟩ := lineBounds_of_lineOf_eq hpq hq h
    rw [lineBounds, lineBounds, hstart, hend]
  · obtain ⟨hstart, hend⟩ := lineBounds_of_lineOf_eq hqp hp h.symm
    rw [lineBounds, lineBounds, hstart, hend]

lemma lineAt_of_lineOf_eq (hp : p ≤ t.length) (hq : q ≤ t.length) (h : lineOf t p = lineOf t q) :
    lineAt t p = lineAt t q :=
  congrArg (fun bounds : Nat × Nat => slice t bounds.1 bounds.2) (lineBounds_congr hp hq h)

lemma lineEnd_le_lineEnd (hpq : p ≤ q) (hq : q ≤ t.length) : lineEnd t p ≤ lineEnd t q := by
  have hend := le_lineEnd hq
  by_cases h : q ≤ lineEnd t p
  · have hflat := newlines_slice_lineEnd (hpq.trans hq)
    rw [← slice_append_slice t hpq h, newlines_append] at hflat
    have hline : lineOf t p = lineOf t q := by
      rw [lineOf, lineOf, ← take_append_slice t hpq, newlines_append]
      omega
    exact (lineBounds_of_lineOf_eq hpq hq hline).2.ge
  · omega

/-- What occurs at a position and has no line end is part of the line there. -/
lemma infix_lineAt (hp : p ≤ t.length) (hn : newlines n = 0) (h : n <+: t.drop p) : n <:+: lineAt t p := by
  obtain ⟨rest, hrest⟩ := h
  have hline : (t.drop p).takeWhile (fun c => !isNewline c) = n ++ rest.takeWhile fun c => !isNewline c := by
    rw [← hrest, List.takeWhile_append_of_pos]
    intro c hc
    simp [newlines_eq_zero.1 hn c hc]
  refine ⟨slice t (lineStart t p) p, rest.takeWhile fun c => !isNewline c, ?_⟩
  rw [List.append_assoc, ← hline, ← slice_lineEnd hp, slice_append_slice t (lineStart_le t p) (le_lineEnd hp)]
  rfl

end LineAt

section First

lemma prefix_of_find? {n t : Text} {p : Nat} (h : find? n t = some p) : p ≤ t.length ∧ n <+: t.drop p := by
  induction t generalizing p with
  | nil =>
    rw [find?] at h
    split at h
    · next hn =>
      obtain rfl := Option.some.inj h
      simp [hn]
    · cases h
  | cons c rest ih =>
    rw [find?] at h
    split at h
    · next hn =>
      obtain rfl := Option.some.inj h
      exact ⟨Nat.zero_le _, by simpa using hn⟩
    · obtain ⟨q, hq, rfl⟩ := Option.map_eq_some_iff.1 h
      obtain ⟨hle, hhere⟩ := ih hq
      exact ⟨Nat.succ_le_succ hle, hhere⟩

/-- A line inside of a text that is found is part of the line that lies as many lines below the place where the
text is found. -/
lemma infix_lineAt_of_find? {front n back t : Text} {p q : Nat} (hfound : find? (front ++ n ++ back) t = some p)
    (hn : newlines n = 0) (hq : q ≤ t.length) (hline : lineOf t q = lineOf t p + newlines front) :
    n <:+: lineAt t q := by
  obtain ⟨hp, rest, hrest⟩ := prefix_of_find? hfound
  have hlen := congrArg List.length hrest
  simp only [List.length_append, List.length_drop] at hlen
  have htake : t.take (p + front.length) = t.take p ++ front := by
    rw [List.take_add, ← hrest, List.append_assoc, List.append_assoc, List.take_left]
  have hdrop : n <+: t.drop (p + front.length) := by
    rw [← List.drop_drop, ← hrest, List.append_assoc, List.append_assoc, List.drop_left]
    exact List.prefix_append _ _
  have hsame : lineOf t (p + front.length) = lineOf t q := by
    rw [hline, lineOf, htake, newlines_append, lineOf]
    omega
  rw [← lineAt_of_lineOf_eq (by omega) hq hsame]
  exact infix_lineAt (by omega) hn hdrop

lemma prefix_drop_of_take_eq {n t u : Text} {p q : Nat} (htake : t.take q = u.take q) (hq : p + n.length ≤ q)
    (h : n <+: t.drop p) : n <+: u.drop p := by
  have hcut := List.prefix_take_iff.2 ⟨h, show n.length ≤ q - p by omega⟩
  rw [← List.drop_take, htake, List.drop_take] at hcut
  exact hcut.trans (List.take_prefix _ _)

/-- A first occurrence is one in any text that goes on as this one does up to its end. An occurrence before `p`
in one text ends before `p + n.length`, so it is one in the other text too. -/
lemma find?_of_take_eq {n t u : Text} {p : Nat} (hfound : find? n t = some p)
    (hu : u.take (p + n.length) = t.take (p + n.length)) : find? n u = some p := by
  obtain ⟨hp, hhere⟩ := prefix_of_find? hfound
  have hlen : p + n.length ≤ u.length := by
    have hle := hhere.length_le
    have heq := congrArg List.length hu
    simp only [List.length_drop, List.length_take] at hle heq
    omega
  obtain ⟨f, hf, hfp⟩ := find?_of_prefix (by omega) (prefix_drop_of_take_eq hu.symm (Nat.le_refl _) hhere)
  obtain ⟨_, hoccurs⟩ := prefix_of_find? hf
  obtain ⟨f', hf', hle⟩ := find?_of_prefix (hfp.trans hp) (prefix_drop_of_take_eq hu (by omega) hoccurs)
  rw [hfound] at hf'
  obtain rfl := Option.some.inj hf'
  rw [hf, Nat.le_antisymm hfp hle]

end First

section Lines
variable {line : Text} {ls : List Text}

lemma join_cons {pieces : List Text} (h : pieces ≠ []) (separator piece : Text) :
    join separator (piece :: pieces) = piece ++ separator ++ join separator pieces := by
  cases pieces with
  | nil => exact absurd rfl h
  | cons _ _ => rfl

lemma lines_spec (t : Text) : join ['\n'] (lines t) = t ∧ ∀ l ∈ lines t, newlines l = 0 := by
  induction t with
  | nil => simp [lines, splitAt, join, newlines]
  | cons c rest ih =>
    have hne : lines rest ≠ [] := splitAt_ne_nil isNewline rest
    cases hc : isNewline c with
    | true =>
      have hlines : lines (c :: rest) = [] :: lines rest := splitAt_cons_of_sep hc rest
      rw [hlines, join_cons hne, ih.1, beq_iff_eq.1 hc]
      exact ⟨rfl, List.forall_mem_cons.2 ⟨rfl, ih.2⟩⟩
    | false =>
      obtain ⟨piece, pieces, hp⟩ := List.exists_cons_of_ne_nil hne
      have hlines : lines (c :: rest) = (c :: piece) :: pieces := splitAt_cons_of_not_sep hc hp
      rw [hp, List.forall_mem_cons] at ih
      have hflat : newlines (c :: piece) = 0 := by
        rw [newlines_eq_zero, List.forall_mem_cons]
        exact ⟨hc, newlines_eq_zero.1 ih.2.1⟩
      rw [hlines]
      refine ⟨?_, List.forall_mem_cons.2 ⟨hflat, ih.2.2⟩⟩
      cases pieces with
      | nil => exact congrArg (c :: ·) ih.1
      | cons _ _ => exact congrArg (c :: ·) ih.1

lemma lines_of_flat (h : newlines line = 0) : lines line = [line] := splitAt_of_forall_not (newlines_eq_zero.1 h)

lemma lines_append_newline (h : newlines line = 0) (t : Text) : lines (line ++ '\n' :: t) = line :: lines t := by
  have hsplit : lines (line ++ '\n' :: t) = lines line ++ lines t := splitAt_append (by decide) line t
  rw [hsplit, lines_of_flat h, List.singleton_append]

lemma lines_join (hne : ls ≠ []) (hflat : ∀ l ∈ ls, newlines l = 0) : lines (join ['\n'] ls) = ls := by
  induction ls with
  | nil => exact absurd rfl hne
  | cons line rest ih =>
    rw [List.forall_mem_cons] at hflat
    by_cases hrest : rest = []
    · subst hrest
      exact lines_of_flat hflat.1
    · rw [join_cons hrest, List.append_assoc, List.singleton_append, lines_append_newline hflat.1, ih hrest hflat.2]

lemma lineStartBelow?_le {t : Text} {rows start p : Nat} (hs : start ≤ t.length)
    (h : lineStartBelow? t start rows = some p) : p ≤ t.length := by
  induction rows generalizing start with
  | zero =>
    obtain rfl := Option.some.inj h
    exact hs
  | succ rows ih =>
    obtain ⟨newline, hfind, hnext⟩ := Option.bind_eq_some_iff.1 h
    have hle := (prefix_of_find? hfind).2.length_le
    simp only [List.length_drop, List.length_cons, List.length_nil] at hle
    exact ih (by omega) hnext

end Lines
end Autofix.Text
