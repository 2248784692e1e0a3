import Mathlib.Logic.Function.Iterate
import Autofix.Proofs.Text.Byte
import Autofix.Proofs.Text.LineNumber

/-! A line by its bounds. The line of an offset, the line with a number, the number of an offset and the line before are
told by different scans of the text; all of them give the same lines. -/
namespace Autofix.Text
variable {t line : Text} {ls rest : List Text} {start stop p k i offset : Nat}

/-- The byte offset lies between two positions, both included. An offset past the end stands for the end. -/
def Holds (t : Text) (start stop offset : Nat) : Prop :=
  byteOffset t start ≤ min offset (byteSize t) ∧ min offset (byteSize t) ≤ byteOffset t stop

lemma holds_iff (hp : ofByteOffset? t offset = some p) (hstart : start ≤ t.length) :
    Holds t start stop offset ↔ start ≤ p ∧ p ≤ stop := by
  obtain ⟨hle, hoffset⟩ := ofByteOffset?_eq_some_iff.1 hp
  rw [Holds, ← hoffset, byteOffset_le_iff hstart, byteOffset_le_iff hle]

section Numbers

lemma IsLine.lineOf_eq_iff (h : IsLine t start stop) (hp : p ≤ t.length) :
    lineOf t p = lineOf t start ↔ start ≤ p ∧ p ≤ stop := by
  constructor
  · intro hline
    have hbounds := lineBounds_congr hp (h.le.trans h.inside) hline
    rw [h.lineBounds_eq (Nat.le_refl _) h.le] at hbounds
    exact ((lineBounds_eq_iff hp).1 hbounds).2
  · rintro ⟨hstart, hstop⟩
    have hbounds := h.lineBounds_eq hstart hstop
    rw [← (Prod.mk.inj hbounds).1, lineOf_lineStart]

lemma isLine_of_lines (h : lines t = ls ++ line :: rest) :
    IsLine t (ls.flatMap (· ++ ['\n'])).length ((ls.flatMap (· ++ ['\n'])).length + line.length) ∧
      lineOf t (ls.flatMap (· ++ ['\n'])).length = ls.length + 1 := by
  have hle := (Nat.le_add_right _ _).trans (le_length_of_lines h)
  have hflat := (lines_spec t).2
  rw [h, List.forall_mem_append] at hflat
  have hnone : (ls.map newlines).sum = 0 := by
    rw [List.map_eq_replicate_iff.2 hflat.1, List.sum_replicate_nat, Nat.mul_zero]
  refine ⟨((lineBounds_eq_iff hle).1 (lineBounds_of_lines h)).1, ?_⟩
  rw [lineOf, take_of_lines h, newlines_flatMap, hnone, Nat.add_zero]

lemma exists_lines_of_lineRange? (h : lineRange? t k = some (start, stop)) :
    ∃ ls line rest, lines t = ls ++ line :: rest ∧ k = ls.length + 1 ∧
      start = (ls.flatMap (· ++ ['\n'])).length ∧ stop = start + line.length := by
  have hk : ¬ (k = 0 ∨ (lines t).length < k) := fun hout => by
    rw [lineRange?_eq_none hout] at h
    cases h
  rw [not_or, Nat.not_lt] at hk
  obtain ⟨ls, line, rest, hlines, rfl⟩ := exists_lines_of_number (by omega) hk.2
  rw [lineRange?_of_lines hlines] at h
  obtain ⟨rfl, rfl⟩ := Prod.mk.inj (Option.some.inj h)
  exact ⟨ls, line, rest, hlines, rfl, rfl, rfl⟩

/-- The line with a number is the one with as many lines before it. -/
theorem lineRange?_eq_some_iff :
    lineRange? t k = some (start, stop) ↔ IsLine t start stop ∧ lineOf t start = k := by
  constructor
  · intro h
    obtain ⟨ls, line, rest, hlines, rfl, rfl, rfl⟩ := exists_lines_of_lineRange? h
    exact isLine_of_lines hlines
  · rintro ⟨h, rfl⟩
    have hle : start ≤ t.length := h.le.trans h.inside
    have hnumber : lineOf t start ≤ (lines t).length := by
      rw [length_lines]
      exact lineOf_le_succ_newlines t start
    obtain ⟨ls, line, rest, hlines, hk⟩ := exists_lines_of_number (lineOf_pos t start) hnumber
    obtain ⟨hline, hfirst⟩ := isLine_of_lines hlines
    obtain ⟨hstart, hstop⟩ := (hline.lineOf_eq_iff hle).1 (hk.trans hfirst.symm)
    rw [hk, lineRange?_of_lines hlines, ← h.lineBounds_eq (Nat.le_refl _) h.le, hline.lineBounds_eq hstart hstop]

theorem isSome_lineRange?_iff : (lineRange? t k).isSome ↔ 1 ≤ k ∧ k ≤ newlines t + 1 := by
  rw [← length_lines]
  constructor
  · intro hsome
    obtain ⟨bounds, h⟩ := Option.isSome_iff_exists.1 hsome
    obtain ⟨ls, line, rest, hlines, rfl, _⟩ := exists_lines_of_lineRange? h
    rw [hlines, List.length_append, List.length_cons]
    omega
  · rintro ⟨hk, hle⟩
    obtain ⟨ls, line, rest, hlines, rfl⟩ := exists_lines_of_number hk hle
    rw [lineRange?_of_lines hlines]
    rfl

end Numbers

section Above

/-- A line starts at the start of the text and after each line end. -/
lemma isLine_of_opens (h : start = 0 ∨ t[start - 1]? = some '\n') : IsLine t start (lineEnd t start) := by
  have hle : start ≤ t.length := by
    rcases h with rfl | hnewline
    · exact Nat.zero_le _
    · have hlt := (List.getElem?_eq_some_iff.1 hnewline).1
      omega
  have hfixed := eq_of_lineOf_eq (lineStart_le t start) hle ((endsLine_take_iff hle).2 h) (lineOf_lineStart t start)
  have hline := isLine_lineBounds hle
  rwa [hfixed] at hline

lemma lineEnd_of_newline (h : t[p]? = some '\n') : lineEnd t p = p := by
  obtain ⟨hlt, hc⟩ := List.getElem?_eq_some_iff.1 h
  rw [lineEnd, List.drop_eq_getElem_cons hlt, hc, List.takeWhile_cons_of_neg (by decide), List.length_take_of_le hlt.le]
  rfl

lemma lineOf_succ_of_newline (h : t[p]? = some '\n') : lineOf t (p + 1) = lineOf t p + 1 := by
  rw [lineOf, lineOf, List.take_add_one, h, newlines_append]
  rfl

@[simp] lemma previousLineStart_zero (t : Text) : previousLineStart t 0 = 0 := by
  have hzero : lineStart t 0 = 0 := Nat.le_zero.1 (lineStart_le t 0)
  simp [previousLineStart, hzero]

/-- One step up from the start of a line leads to the start of the line that ends right before it. -/
theorem IsLine.previous (h : IsLine t start stop) (hpos : 0 < start) :
    IsLine t (previousLineStart t start) (start - 1) ∧ lineOf t (previousLineStart t start) + 1 = lineOf t start := by
  obtain ⟨p, rfl⟩ : ∃ p, start = p + 1 := ⟨start - 1, by omega⟩
  have hnewline : t[p]? = some '\n' := h.opens.resolve_left hpos.ne'
  have hfixed : lineStart t (p + 1) = p + 1 := (Prod.mk.inj (h.lineBounds_eq (Nat.le_refl _) h.le)).1
  have hstep : previousLineStart t (p + 1) = lineStart t p := by simp [previousLineStart, hfixed]
  have hline := isLine_lineBounds (t := t) (p := p) ((Nat.le_succ p).trans (h.le.trans h.inside))
  rw [lineEnd_of_newline hnewline] at hline
  rw [hstep, lineOf_lineStart, lineOf_succ_of_newline hnewline]
  exact ⟨hline, rfl⟩

lemma IsLine.start_eq_zero_iff (h : IsLine t start stop) : start = 0 ↔ lineOf t start = 1 := by
  constructor
  · rintro rfl
    rfl
  · intro hfirst
    by_contra hne
    have hstep := (h.previous (Nat.pos_of_ne_zero hne)).2
    have hpos := lineOf_pos t (previousLineStart t start)
    omega

theorem IsLine.iterate_previous (h : IsLine t start stop) (hi : i < lineOf t start) :
    ∃ stop', lineRange? t (lineOf t start - i) = some ((previousLineStart t)^[i] start, stop') := by
  induction i generalizing start stop with
  | zero => exact ⟨stop, lineRange?_eq_some_iff.2 ⟨h, rfl⟩⟩
  | succ i ih =>
    have hpos : 0 < start := Nat.pos_of_ne_zero fun hzero => by
      have hfirst := h.start_eq_zero_iff.1 hzero
      omega
    obtain ⟨hline, hstep⟩ := h.previous hpos
    obtain ⟨stop', hrange⟩ := ih hline (by omega)
    refine ⟨stop', ?_⟩
    rwa [Function.iterate_succ_apply, ← hstep, Nat.add_sub_add_right]

/-- The steps up from the start of a line come to the start of the text when no line is left, and stay there. -/
theorem IsLine.iterate_previous_eq_zero_iff (h : IsLine t start stop) (i : Nat) :
    (previousLineStart t)^[i] start = 0 ↔ lineOf t start - 1 ≤ i := by
  induction i generalizing start stop with
  | zero =>
    have hpos := lineOf_pos t start
    rw [Function.iterate_zero_apply, h.start_eq_zero_iff]
    omega
  | succ i ih =>
    rw [Function.iterate_succ_apply]
    by_cases hzero : start = 0
    · subst hzero
      rw [previousLineStart_zero, Function.iterate_fixed (previousLineStart_zero t)]
      exact iff_of_true rfl (Nat.zero_le _)
    · obtain ⟨hline, hstep⟩ := h.previous (Nat.pos_of_ne_zero hzero)
      rw [ih hline]
      omega

end Above

/-- Where lines are is told alike by a position, by a number and by the line below. A byte offset, taken as the end of the
text if it is past it, stands for the position whose text before it has this size, and lies inside a character if there is
none. The bounds of an offset are those of the one line that holds it. There is a line for each number from one to that
of the line ends and one more; it has one line end less before it than its number, and it holds the offsets that have its
number. A step up from the start of a line leads to the start of the line that ends right before it, more steps to the
line whose number is that much smaller, and to the start of the text once no line is left above, and no earlier. -/
theorem line_positions_agree (t : Text) :
    (∀ offset p, ofByteOffset? t offset = some p ↔ p ≤ t.length ∧ byteOffset t p = min offset (byteSize t)) ∧
    (∀ offset p, ofByteOffset? t offset = some p → ∀ start stop,
      lineBounds t p = (start, stop) ↔ IsLine t start stop ∧ Holds t start stop offset) ∧
    (∀ k, (lineRange? t k).isSome ↔ 1 ≤ k ∧ k ≤ newlines t + 1) ∧
    (∀ k start stop, lineRange? t k = some (start, stop) →
      IsLine t start stop ∧ newlines (t.take start) = k - 1 ∧ (lines t)[k - 1]? = some (slice t start stop) ∧
      ∀ offset p, ofByteOffset? t offset = some p → (lineOf t p = k ↔ Holds t start stop offset)) ∧
    (∀ start, start = 0 ∨ t[start - 1]? = some '\n' →
      (0 < start → IsLine t (previousLineStart t start) (start - 1)) ∧
      (∀ i < lineOf t start, ∃ stop,
        lineRange? t (lineOf t start - i) = some ((previousLineStart t)^[i] start, stop)) ∧
      ∀ i, (previousLineStart t)^[i] start = 0 ↔ lineOf t start - 1 ≤ i) := by
  refine ⟨fun offset p => ofByteOffset?_eq_some_iff, ?_, fun k => isSome_lineRange?_iff, ?_, ?_⟩
  · intro offset p hp start stop
    rw [lineBounds_eq_iff (ofByteOffset?_eq_some_iff.1 hp).1]
    exact and_congr_right fun h => (holds_iff hp (h.le.trans h.inside)).symm
  · intro k start stop h
    obtain ⟨hline, hnumber⟩ := lineRange?_eq_some_iff.1 h
    refine ⟨hline, Nat.eq_sub_of_add_eq hnumber, ?_, fun offset p hp => ?_⟩
    · obtain ⟨ls, line, rest, hlines, rfl, rfl, rfl⟩ := exists_lines_of_lineRange? h
      rw [slice_of_lines hlines, hlines, Nat.add_sub_cancel, List.getElem?_append_right (Nat.le_refl _), Nat.sub_self]
      rfl
    · rw [holds_iff hp (hline.le.trans hline.inside), ← hnumber]
      exact hline.lineOf_eq_iff (ofByteOffset?_eq_some_iff.1 hp).1
  · intro start hopens
    have hline := isLine_of_opens hopens
    exact ⟨fun hpos => (hline.previous hpos).1, fun i hi => hline.iterate_previous hi,
      hline.iterate_previous_eq_zero_iff⟩

/-- Characters of two and three bytes, a carriage return, an empty line and no line end after the last line. Two steps
lead from the third line to the start of the text; an offset past the end is on the last line. -/
theorem line_positions_agree_wide :
    let t := "é\r\n\n\u3000b".toList
    ofByteOffset? t 8 = some 5 ∧ ofByteOffset? t 100 = some 6 ∧ lineBounds t 5 = (4, 6) ∧ Holds t 4 6 8 ∧
      lineRange? t 3 = some (4, 6) ∧ IsLine t 4 6 ∧ lineOf t 6 = 3 ∧ (lineRange? t 4).isSome = false ∧
      IsLine t (previousLineStart t 4) 3 ∧ lineRange? t 2 = some (3, 3) ∧ (previousLineStart t)^[1] 4 ≠ 0 ∧
      (previousLineStart t)^[2] 4 = 0 := by
  intro t
  obtain ⟨hoffset, hbounds, hsome, hrange, hup⟩ := line_positions_agree t
  have hb : ofByteOffset? t 8 = some 5 := (hoffset 8 5).2 (by decide +kernel)
  have hend : ofByteOffset? t 100 = some 6 := (hoffset 100 6).2 (by decide +kernel)
  have hthird : lineRange? t 3 = some (4, 6) := by decide +kernel
  have hnumber : lineOf t 4 = 3 := by decide +kernel
  obtain ⟨hline, _, _, hholds⟩ := hrange 3 4 6 hthird
  obtain ⟨habove, _, hzero⟩ := hup 4 (.inr (by decide +kernel))
  have hlast : Holds t 4 6 100 := ((hbounds 100 6 hend 4 6).1 (by decide +kernel)).2
  have hfour : ¬ (lineRange? t 4).isSome := fun h => absurd ((hsome 4).1 h) (by decide +kernel)
  exact ⟨hb, hend, by decide +kernel, (hholds 8 5 hb).1 (by decide +kernel), hthird, hline, (hholds 100 6 hend).2 hlast,
    by simpa using hfour, habove (by decide), by decide +kernel, fun h => absurd ((hzero 1).1 h) (by decide +kernel),
    (hzero 2).2 (by rw [hnumber])⟩

end Autofix.Text
