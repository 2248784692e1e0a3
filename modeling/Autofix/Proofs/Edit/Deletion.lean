import Autofix.Proofs.Edit.Lost

/-! Deletions. A deletion takes a stretch of a text away, and with it the lines that only blanks share with it. -/
namespace Autofix.Edit
open Text

variable {t : Text} {start stop p q : Nat}

lemma lineEnd_lt_lineStart (hp : p ≤ t.length) (h : lineOf t p < lineOf t q) : lineEnd t p < lineStart t q := by
  by_contra hle
  have hmono := lineOf_le t (Nat.not_lt.1 hle)
  rw [lineOf_lineStart, lineOf_lineEnd hp] at hmono
  omega

lemma slice_lineEnd_succ (hp : p ≤ t.length) (hlt : lineEnd t p < t.length) :
    slice t (lineEnd t p) (lineEnd t p + 1) = ['\n'] := by
  rcases drop_lineEnd_cases hp with hnil | hhead
  · exact absurd (List.drop_eq_nil_iff.1 hnil) (by omega)
  · rw [slice, List.take_add_one, ← List.head?_drop, hhead, List.drop_append_of_le_length (by simp; omega)]
    simp

lemma deletion_cases (t : Text) (start stop : Nat) :
    deletion t start stop = ⟨start, stop, []⟩ ∨
      isBlankText (slice t (lineStart t start) start) = true ∧ isBlankText (slice t stop (lineEnd t stop)) = true ∧
        deletion t start stop =
          ⟨lineStart t start, if lineEnd t stop < t.length then lineEnd t stop + 1 else lineEnd t stop, []⟩ := by
  rw [deletion]
  split
  · next hblank =>
    rw [Bool.and_eq_true] at hblank
    exact .inr ⟨hblank.1, hblank.2, rfl⟩
  · exact .inl rfl

lemma deletion_bounds (start : Nat) (hstop : stop ≤ t.length) :
    lineStart t start ≤ (deletion t start stop).start ∧ (deletion t start stop).start ≤ start ∧
      stop ≤ (deletion t start stop).stop ∧ (deletion t start stop).stop ≤ lineEnd t stop + 1 ∧
      (deletion t start stop).stop ≤ t.length := by
  have hstart := lineStart_le t start
  have hend := le_lineEnd hstop
  have hlen := lineEnd_le hstop
  rcases deletion_cases t start stop with h | ⟨_, _, h⟩
  · rw [h]
    exact ⟨hstart, Nat.le_refl _, Nat.le_refl _, by simp only; omega, hstop⟩
  · rw [h]
    refine ⟨Nat.le_refl _, hstart, ?_, ?_, ?_⟩
    all_goals
      simp only
      split <;> omega

lemma fits_deletion (hle : start ≤ stop) (hstop : stop ≤ t.length) : (deletion t start stop).Fits t := by
  obtain ⟨_, hopen, hclose, _, hinside⟩ := deletion_bounds start hstop
  exact ⟨by omega, hinside⟩

/-- The anchor of a deletion ends with the last line of what is deleted, if not with its line end. -/
lemma anchored_deletion_stop_le (hlt : start < stop) (hstop : stop ≤ t.length) :
    ((deletion t start stop).anchored t).stop ≤ lineEnd t stop + 1 := by
  obtain ⟨_, hopen, hclose, hend, _⟩ := deletion_bounds start hstop
  have hfits := fits_deletion hlt.le hstop
  have heq : ∀ e : Edit, (e.anchored t).stop = (lineAnchor t e).2 := fun _ => rfl
  have hsame : ∀ {q}, stop ≤ q → q ≤ lineEnd t stop → lineEnd t q = lineEnd t stop := fun {q} hq hq' => by
    have hlen := hq'.trans (lineEnd_le hstop)
    have hle := lineOf_le t hq
    have hle' := lineOf_le t hq'
    rw [lineOf_lineEnd hstop] at hle'
    exact (lineBounds_of_lineOf_eq hq hlen (by omega)).2
  rw [heq]
  rcases lineAnchor_stop_cases t (deletion t start stop) with ⟨h, _⟩ | ⟨h, hlast⟩ | ⟨_, hempty⟩
  · omega
  · rcases Nat.lt_or_ge (lineEnd t stop) (deletion t start stop).stop with hpast | hin
    · have hnext : (deletion t start stop).stop = lineEnd t stop + 1 := by omega
      have hinside := hfits.inside
      rw [hnext, ← take_append_slice t (Nat.le_succ _), slice_lineEnd_succ hstop (by omega),
        List.getLast?_concat] at hlast
      exact absurd ⟨by omega, rfl⟩ hlast
    · rw [h, hsame hclose hin]
      omega
  · have := le_lineEnd hfits.inside
    have := lineStart_le t (deletion t start stop).start
    omega

lemma isBlankText_slice {p' q' : Nat} (h : isBlankText (slice t p q) = true) (hp : p ≤ p') (hle : p' ≤ q')
    (hq : q' ≤ q) : isBlankText (slice t p' q') = true := by
  rw [← slice_append_slice t (hp.trans hle) hq, ← slice_append_slice t hp hle] at h
  simp only [isBlankText, List.all_append, Bool.and_eq_true] at h ⊢
  exact h.1.2

/-- A stretch that shares a line with something else is deleted alone. -/
lemma deletion_of_shared (hsolid : isBlankText (slice t p q) = false) (hle : p ≤ q)
    (hshared : stop ≤ p ∧ q ≤ lineEnd t stop ∨ lineStart t start ≤ p ∧ q ≤ start) :
    deletion t start stop = ⟨start, stop, []⟩ := by
  rcases deletion_cases t start stop with h | ⟨hbefore, hafter, _⟩
  · exact h
  · rcases hshared with ⟨hp, hq⟩ | ⟨hp, hq⟩
    · rw [isBlankText_slice hafter hp hle hq] at hsolid
      cases hsolid
    · rw [isBlankText_slice hbefore hp hle hq] at hsolid
      cases hsolid

/-- A deletion next to something that starts and ends without blanks leaves it alone. -/
lemma deletion_spares (hlt : p < q) (hq : q ≤ t.length) (hstop : stop ≤ t.length)
    (hfirst : isBlankText (slice t p (p + 1)) = false) (hlast : isBlankText (slice t (q - 1) q) = false)
    (hapart : q ≤ start ∨ stop ≤ p) : q ≤ (deletion t start stop).start ∨ (deletion t start stop).stop ≤ p := by
  rcases deletion_cases t start stop with h | ⟨hbefore, hafter, h⟩
  · rw [h]
    exact hapart
  rw [h]
  rcases hapart with habove | hbelow
  · left
    by_contra hover
    rw [isBlankText_slice hbefore (by simp only at hover; omega) (Nat.sub_le _ _) habove] at hlast
    cases hlast
  · right
    have hend : lineEnd t stop ≤ p := by
      by_contra hover
      rw [isBlankText_slice hafter hbelow (Nat.le_succ _) (by omega)] at hfirst
      cases hfirst
    have hne : lineEnd t stop ≠ p := by
      intro heq
      rw [← heq, slice_lineEnd_succ hstop (by omega)] at hfirst
      exact absurd hfirst (by decide)
    simp only
    split <;> omega

/-- What a deletion takes away besides the stretch itself is blank. -/
lemma isBlank_of_deletion (hstop : stop ≤ t.length) {c : Char} (hc : t[p]? = some c)
    (hfirst : (deletion t start stop).start ≤ p) (hlast : p < (deletion t start stop).stop) :
    start ≤ p ∧ p < stop ∨ isBlank c = true := by
  have hmem : ∀ {q r}, q ≤ p → p < r → isBlankText (slice t q r) = true → isBlank c = true := by
    intro q r hq hr hblank
    have hat : (slice t q r)[p - q]? = some c := by
      rw [getElem?_slice, if_pos (by omega), Nat.add_sub_of_le hq, hc]
    exact List.all_eq_true.1 hblank c (List.mem_of_getElem? hat)
  rcases deletion_cases t start stop with h | ⟨hbefore, hafter, h⟩
  · rw [h] at hfirst hlast
    exact .inl ⟨hfirst, hlast⟩
  rw [h] at hfirst hlast
  by_cases hopen : p < start
  · exact .inr (hmem hfirst hopen hbefore)
  by_cases hclose : p < stop
  · exact .inl ⟨by omega, hclose⟩
  by_cases hline : p < lineEnd t stop
  · exact .inr (hmem (by omega) hline hafter)
  · have hlt : lineEnd t stop < t.length ∧ p = lineEnd t stop := by
      simp only at hlast
      split at hlast <;> omega
    refine .inr (hmem (q := lineEnd t stop) (r := lineEnd t stop + 1) (by omega) (by omega) ?_)
    rw [slice_lineEnd_succ hstop hlt.1]
    decide

end Autofix.Edit
