import Autofix.Proofs.Edit.Order
import Autofix.Proofs.Text.LineAt

/-! The line on which an edit starts. A change that is applied to another text expects that line at its place
there, so it is stale when the line at that place does not hold what stood on it. -/
namespace Autofix.Edit
open Text

variable {t u : Text} {e : Edit} {q line : Nat}

/-- The edit takes away from its line what the line was found by. -/
def Loses (t : Text) (e : Edit) : Prop := ¬ lineAt t e.start <:+: lineAt (e.apply t) e.start

instance (t : Text) (e : Edit) : Decidable (e.Loses t) := inferInstanceAs (Decidable (¬ _))

lemma anchored_start_le (t : Text) (e : Edit) : (e.anchored t).start ≤ lineStart t e.start := by
  have hwiden := widen_le t (lineAnchor t e).2 (lineAnchor t e).1 (lineAnchor t e).1
  have hprev : ∀ p, 0 < p → previousLineStart t p < p := fun _ => previousLineStart_lt
  have hline : (lineAnchor t e).1 ≤ lineStart t e.start := by
    simp only [lineAnchor]
    split_ifs
    all_goals grind
  exact hwiden.trans hline

lemma lineEnd_le_anchored_stop (he : e.Fits t) : lineEnd t e.start ≤ (e.anchored t).stop := by
  have hmono := lineEnd_le_lineEnd he.le he.inside
  have hstop : (e.anchored t).stop = (lineAnchor t e).2 := rfl
  rcases lineAnchor_stop_cases t e with ⟨heq, hlt, hlast⟩ | ⟨heq, _⟩ | ⟨heq, _⟩
  · by_contra hover
    have hsame := eq_of_endsLine (he.le.trans he.inside) he.le (by omega) (.inr hlast)
    omega
  · omega
  · omega

/-- The change of an edit is stale where another line stands at the place of the line on which the edit
starts. -/
theorem substitute?_of_lost (path : String) (ht : t ≠ []) (he : e.Fits t) (hq : q ≤ u.length)
    (hline : lineOf u q + lineOf t (e.anchored t).start = line + lineOf t e.start)
    (hlost : ¬ lineAt t e.start <:+: lineAt u q) : (e.toChange path t).substitute? (some line) u = none := by
  have hopen := anchored_start_le t e
  have hclose := lineEnd_le_anchored_stop he
  have hp := he.le.trans he.inside
  have hmid := (lineStart_le t e.start).trans (le_lineEnd hp)
  have hwhole : (e.toChange path t).isWholeFile = false := by
    rw [toChange_eq]
    exact isWholeFile_substitution path (isAnchor_anchored ht he.le he.inside)
  have hexpected : (e.toChange path t).expected.toList = slice t (e.anchored t).start (lineStart t e.start) ++
      lineAt t e.start ++ slice t (lineEnd t e.start) (e.anchored t).stop := by
    rw [lineAt, slice_append_slice t hopen hmid, slice_append_slice t (hopen.trans hmid) hclose]
    exact String.toList_ofList
  have hlines : lineOf t e.start =
      lineOf t (e.anchored t).start + newlines (slice t (e.anchored t).start (lineStart t e.start)) := by
    rw [lineOf, lineOf, ← take_append_slice t (lineStart_le t e.start), newlines_append, newlines_slice_lineStart,
      ← take_append_slice t hopen, newlines_append]
    omega
  rw [Change.substitute?, hwhole, hexpected]
  cases hfind : find? (slice t (e.anchored t).start (lineStart t e.start) ++ lineAt t e.start ++
      slice t (lineEnd t e.start) (e.anchored t).stop) u with
  | none => rfl
  | some p =>
    have hne : line ≠ lineOf u p := fun heq =>
      hlost (infix_lineAt_of_find? hfind (newlines_lineAt hp) hq (by omega))
    simp [hne]

end Autofix.Edit
