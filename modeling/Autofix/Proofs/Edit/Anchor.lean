import Autofix.Proofs.Edit.Patch

/-! Anchors of edits: the whole lines that an edit is widened to, and the line numbers by which they
are told apart. -/
namespace Autofix.Edit
open Text

/-- The edit of whole lines that stands for an edit: its anchor, and what replaces it. -/
def anchored (t : Text) (e : Edit) : Edit where
  start := (anchor t e).1
  stop := (anchor t e).2
  replacement := slice t (anchor t e).1 e.start ++ e.replacement ++ slice t e.stop (anchor t e).2

/-- The line of the last character of an edited stretch, final line ends aside. -/
def lastLine (t : Text) (a : Edit) : Nat :=
  lineOf t (a.start + (trimEndWhile (· == '\n') (slice t a.start a.stop)).length)

/-- The change that replaces a stretch of a text and says on which lines it stands. -/
def substitution (path : String) (t : Text) (a : Edit) : Change where
  filePath := Path.normalize path
  expected := String.ofList (slice t a.start a.stop)
  replacement := String.ofList a.replacement
  startLine := some (lineOf t a.start)
  endLine := some (lastLine t a)

/-- The change that an edit is made into replaces its anchor. -/
theorem toChange_eq (path : String) (t : Text) (e : Edit) : e.toChange path t = (e.anchored t).substitution path t := rfl

/-- A stretch of whole lines: it starts where a line does, and it ends with a line end, before one or
at the end of the text. -/
structure IsAnchor (t : Text) (a : Edit) : Prop where
  lt : a.start < a.stop
  le : a.stop ≤ t.length
  opened : EndsLine (t.take a.start)
  closed : (t.take a.stop).getLast? = some '\n' ∨ t.drop a.stop = [] ∨ (t.drop a.stop).head? = some '\n'

section Widening
variable {t : Text} {e : Edit}

lemma widen_le (t : Text) (stop fuel start : Nat) : widen t stop fuel start ≤ start := by
  induction fuel generalizing start with
  | zero => exact Nat.le_refl _
  | succ fuel ih =>
    rw [widen]
    split
    · exact Nat.le_refl _
    · next h =>
      have hlt : previousLineStart t start < start := previousLineStart_lt (by omega)
      exact Nat.le_trans (ih _) (Nat.le_of_lt hlt)

lemma endsLine_take_widen (stop fuel : Nat) {start : Nat} (h : EndsLine (t.take start)) :
    EndsLine (t.take (widen t stop fuel start)) := by
  induction fuel generalizing start with
  | zero => exact h
  | succ fuel ih =>
    rw [widen]
    split
    · exact h
    · exact ih (endsLine_take_previousLineStart t start)

/-- The lines that an edit touches, or their neighbours if they are empty, are whole lines. The cases are those
of `lineAnchor`: the edit ends with a line end; else its lines hold something; else they are empty, and the line
end after them or the line before them is taken along. -/
lemma isAnchor_lineAnchor (ht : t ≠ []) (hle : e.start ≤ e.stop) (hstop : e.stop ≤ t.length) :
    IsAnchor t ⟨(lineAnchor t e).1, (lineAnchor t e).2, e.replacement⟩ := by
  have hopen := endsLine_take_lineStart t e.start
  have hstart := lineStart_le t e.start
  by_cases hnl : e.start < e.stop ∧ (t.take e.stop).getLast? = some '\n'
  · have hne : lineStart t e.start ≠ e.stop := by omega
    have hanchor : lineAnchor t e = (lineStart t e.start, e.stop) := by
      simp [lineAnchor, hnl.1, hnl.2, hne]
    rw [hanchor]
    exact ⟨by simp only; omega, hstop, hopen, .inl hnl.2⟩
  · have hend : (if e.start < e.stop && (t.take e.stop).getLast? == some '\n' then e.stop
        else lineEnd t e.stop) = lineEnd t e.stop := if_neg (by simpa using hnl)
    have hge := le_lineEnd hstop
    have hlen := lineEnd_le hstop
    have hclose := drop_lineEnd_cases hstop
    simp only [lineAnchor, hend]
    split
    · next heq =>
      split
      · next hlt =>
        rw [heq] at hopen
        refine ⟨by simp only; omega, hlt, by simpa only [heq] using hopen, .inl ?_⟩
        rcases hclose with hnil | hhead
        · exact absurd (List.drop_eq_nil_iff.1 hnil) (by omega)
        · rw [List.take_add_one, ← List.head?_drop, hhead]
          simp
      · have hall : lineEnd t e.stop = t.length := by omega
        have hpos : 0 < t.length := List.length_pos_iff.2 ht
        rw [if_pos (by omega)]
        refine ⟨?_, hlen, endsLine_take_previousLineStart t _, .inr (.inl ?_)⟩
        · have hlt : previousLineStart t (lineStart t e.start) < lineStart t e.start :=
            previousLineStart_lt (by omega)
          simp only
          omega
        · simp only [hall, List.drop_length]
    · exact ⟨by simp only; omega, hlen, hopen, .inr hclose⟩

theorem isAnchor_anchored (ht : t ≠ []) (hle : e.start ≤ e.stop) (hstop : e.stop ≤ t.length) :
    IsAnchor t (e.anchored t) := by
  obtain ⟨hlt, hlen, hopen, hclose⟩ := isAnchor_lineAnchor ht hle hstop
  have hwiden := widen_le t (lineAnchor t e).2 (lineAnchor t e).1 (lineAnchor t e).1
  exact ⟨Nat.lt_of_le_of_lt hwiden hlt, hlen, endsLine_take_widen _ _ hopen, hclose⟩

end Widening

section Lines
variable {t : Text} {a c : Edit}

/-- Between the last line of an anchor and the first line of an anchor after it stands a line end. -/
lemma lastLine_lt (ha : IsAnchor t a) (hc : IsAnchor t c) (h : a.stop ≤ c.start) :
    lastLine t a < lineOf t c.start := by
  have hlt := Nat.le_of_lt ha.lt
  have hmono := newlines_take_le t h
  simp only [lastLine, lineOf]
  rcases trimEndWhile_cases (slice t a.start a.stop) with ⟨hself, hlast⟩ | ⟨tail, htail, hpos⟩
  · have hstop : a.start + (slice t a.start a.stop).length = a.stop := by
      rw [length_slice t ha.le]
      omega
    have hopen := hc.opened
    have hslice : slice t a.stop c.start ≠ [] := by
      intro hnil
      rw [← take_append_slice t h, hnil, List.append_nil, ← take_append_slice t hlt] at hopen
      exact hlast (hopen.getLast?_eq (slice_ne_nil t ha.lt ha.le))
    rw [← take_append_slice t h] at hopen
    have hpos := newlines_pos_of_getLast? (hopen.getLast?_eq hslice)
    rw [hself, hstop, ← take_append_slice t h, newlines_append]
    omega
  · have htake := take_add_of_slice_eq t hlt ha.le htail.symm
    have hstop : newlines (t.take a.stop) = newlines (t.take a.start ++ trimEndWhile (· == '\n')
        (slice t a.start a.stop)) + newlines tail := by
      rw [← take_append_slice t hlt, ← newlines_append, List.append_assoc, htail]
    rw [htake]
    omega

/-- Which of two anchors stands first can be told from their lines. -/
theorem lastLine_lt_iff (ha : IsAnchor t a) (hc : IsAnchor t c) (h : a.Apart c) :
    lastLine t a < lineOf t c.start ↔ a.stop ≤ c.start := by
  refine ⟨fun hlt => h.resolve_right fun hle => ?_, lastLine_lt ha hc⟩
  have hca := newlines_take_le t (p := c.start) (q := a.start) (by have := hc.lt; omega)
  have hal := newlines_take_le t (p := a.start)
    (q := a.start + (trimEndWhile (· == '\n') (slice t a.start a.stop)).length) (Nat.le_add_right _ _)
  simp only [lastLine, lineOf] at hlt
  omega

end Lines
end Autofix.Edit
