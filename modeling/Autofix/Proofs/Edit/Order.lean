import Autofix.Proofs.Edit.Splice

/-! Two edits of one text. The lines of an anchor that stands above an edit or below it come before or
after the last line of the edit's own anchor; only an edit that inserts something right where the other
anchor starts shares its first line with it. -/
namespace Autofix.Edit
open Text

section Trailing
variable {t : Text} {a : Edit} {i p q : Nat}

lemma getElem?_slice (t : Text) (p q i : Nat) : (slice t p q)[i]? = if p + i < q then t[p + i]? else none := by
  simp [slice, List.getElem?_take]

lemma trimEndWhile_append (t : Text) :
    ∃ tail, trimEndWhile (· == '\n') t ++ tail = t ∧ ∀ c ∈ tail, c = '\n' := by
  refine ⟨(t.reverse.takeWhile (· == '\n')).reverse, ?_, fun c hc => ?_⟩
  · rw [trimEndWhile, ← List.reverse_append, List.takeWhile_append_dropWhile, List.reverse_reverse]
  · have hnewline := List.mem_takeWhile_imp (List.mem_reverse.1 hc)
    exact beq_iff_eq.1 hnewline

/-- The end of an edited stretch, final line ends aside. -/
def trimmedStop (t : Text) (a : Edit) : Nat := a.start + (trimEndWhile (· == '\n') (slice t a.start a.stop)).length

lemma lastLine_eq (t : Text) (a : Edit) : lastLine t a = lineOf t (trimmedStop t a) := rfl

/-- From there on the stretch has line ends only. -/
lemma getElem?_of_trimmedStop_le (h : trimmedStop t a ≤ i) (hi : i < a.stop) (ha : a.stop ≤ t.length) :
    t[i]? = some '\n' := by
  obtain ⟨tail, htail, hnewlines⟩ := trimEndWhile_append (slice t a.start a.stop)
  have hlen := length_slice t (p := a.start) ha
  rw [← htail, List.length_append] at hlen
  simp only [trimmedStop] at h
  have hat : (slice t a.start a.stop)[i - a.start]? = t[i]? := by
    rw [getElem?_slice, if_pos (by omega)]
    congr 1
    omega
  rw [← hat, ← htail, List.getElem?_append_right (by omega)]
  have hin : i - a.start - (trimEndWhile (· == '\n') (slice t a.start a.stop)).length < tail.length := by omega
  rw [List.getElem?_eq_getElem hin, hnewlines _ (List.getElem_mem hin)]

/-- A stretch of line ends can be moved up by one line end. -/
lemma slice_pred (hp : 0 < p) (h : ∀ i, p - 1 ≤ i → i < q → t[i]? = some '\n') :
    slice t (p - 1) (q - 1) = slice t p q := by
  refine List.ext_getElem? fun i => ?_
  rw [getElem?_slice, getElem?_slice]
  by_cases hi : p + i < q
  · rw [if_pos (by omega), if_pos hi, h _ (by omega) (by omega), h _ (by omega) hi]
  · rw [if_neg (by omega), if_neg hi]

end Trailing

section Above
variable {t : Text} {e g : Edit}

/-- The anchor of an edit does not end before an anchor above the edit starts, line ends aside. Otherwise the
anchor of `g` lies in the line ends that close the anchor of `e`, and moved up by one of them it gives an
earlier occurrence, though it is the first. -/
theorem lineOf_le_lastLine (ht : t ≠ []) (he : e.Fits t) (hg : g.Fits t) (h : (g.anchored t).stop ≤ e.start) :
    lineOf t (g.anchored t).start ≤ lastLine t (e.anchored t) := by
  obtain ⟨hopen, hclose, hinside⟩ := anchored_bounds he
  have hlt := (isAnchor_anchored ht hg.le hg.inside).lt
  have hle := he.le
  rw [lastLine_eq]
  by_contra hline
  have hafter : trimmedStop t (e.anchored t) < (g.anchored t).start := by
    by_contra hge
    exact hline (lineOf_le t (by omega))
  have hmoved := slice_pred (t := t) (p := (g.anchored t).start) (q := (g.anchored t).stop) (by omega)
    fun i hi hi' => getElem?_of_trimmedStop_le (a := e.anchored t) (by omega) (by omega) hinside
  have hoccurs : slice t (g.anchored t).start (g.anchored t).stop <+: t.drop ((g.anchored t).start - 1) := by
    rw [← hmoved]
    exact ⟨_, slice_append_drop t (by omega)⟩
  obtain ⟨f, hf, hfle⟩ := find?_of_prefix (by omega) hoccurs
  rw [find?_anchored] at hf
  obtain rfl := Option.some.inj hf
  omega

end Above

section Below
variable {t : Text} {e g : Edit} {p : Nat}

/-- No line starts between a position and the end of its line. -/
lemma eq_of_endsLine (hp : p ≤ t.length) {q : Nat} (hpq : p ≤ q) (hq : q ≤ lineEnd t p) (hstart : EndsLine (t.take q)) :
    q = p := by
  by_contra hne
  have hlen := lineEnd_le hp
  have hslice : slice t p q ≠ [] := slice_ne_nil t (by omega) (by omega)
  rw [← take_append_slice t hpq] at hstart
  have hmem := List.mem_of_getLast? (hstart.getLast?_eq hslice)
  have hrest := slice_lineEnd hp
  rw [← slice_append_slice t hpq hq] at hrest
  have hline := List.mem_takeWhile_imp (hrest ▸ List.mem_append_left _ hmem)
  simp [isNewline] at hline

lemma lt_lineEnd (hp : p < t.length) (h : t[p]? ≠ some '\n') : p < lineEnd t p := by
  have hdrop := List.drop_eq_getElem_cons hp
  have hne : t[p] ≠ '\n' := fun heq => h (by rw [List.getElem?_eq_getElem hp, heq])
  have hlen : (t.take p).length = p := List.length_take_of_le (by omega)
  rw [lineEnd, hdrop, List.takeWhile_cons_of_pos (by simpa [isNewline] using hne), List.length_cons, hlen]
  omega

/-- An anchor ends with the edit, with its last line, or with the line end of its only line if that is
empty. -/
lemma lineAnchor_stop_cases (t : Text) (e : Edit) :
    ((lineAnchor t e).2 = e.stop ∧ e.start < e.stop ∧ (t.take e.stop).getLast? = some '\n') ∨
      ((lineAnchor t e).2 = lineEnd t e.stop ∧ ¬ (e.start < e.stop ∧ (t.take e.stop).getLast? = some '\n')) ∨
      ((lineAnchor t e).2 = lineEnd t e.stop + 1 ∧ lineStart t e.start = lineEnd t e.stop) := by
  have hstart := lineStart_le t e.start
  simp only [lineAnchor]
  grind

/-- Below an edit its anchor has come to its end when another anchor starts, unless the edit inserts something
right there. Only an anchor that ends with a line can go past the edit, and no other anchor starts inside a
line. -/
theorem lastLine_lt_of_below (ht : t ≠ []) (he : e.Fits t) (hg : g.Fits t) (h : e.stop ≤ (g.anchored t).start)
    (hapart : ¬ (e.start = e.stop ∧ e.stop = (g.anchored t).start)) :
    lastLine t (e.anchored t) < lineOf t (g.anchored t).start := by
  have hgt := isAnchor_anchored ht hg.le hg.inside
  have hle := he.le
  have hend := le_lineEnd he.inside
  refine lastLine_lt (isAnchor_anchored ht he.le he.inside) hgt ?_
  by_contra hover
  have hstop : (e.anchored t).stop = (lineAnchor t e).2 := rfl
  rcases lineAnchor_stop_cases t e with ⟨heq, _, _⟩ | ⟨hin, hopen⟩ | ⟨heq, hempty⟩
  · omega
  · have hsame : (g.anchored t).start = e.stop := eq_of_endsLine he.inside h (by omega) hgt.opened
    have hnonempty : e.start < e.stop := by omega
    have hne : t.take e.stop ≠ [] := by
      rw [Ne, List.take_eq_nil_iff]
      rintro (hzero | hnil)
      · omega
      · exact ht hnil
    exact hopen ⟨hnonempty, (hsame ▸ hgt.opened).resolve_left hne⟩
  · have := lineStart_le t e.start
    omega

/-- An edit that inserts something into a line that is not empty has that line in its anchor. -/
theorem lineOf_le_lastLine_of_insertion (he : e.Fits t) (hempty : e.start = e.stop) (hlen : e.stop < t.length)
    (hline : t[e.stop]? ≠ some '\n') : lineOf t e.stop ≤ lastLine t (e.anchored t) := by
  obtain ⟨hopen, hclose, hinside⟩ := anchored_bounds he
  have hlt := lt_lineEnd hlen hline
  have hstop : e.stop < (e.anchored t).stop := by
    have heq : (e.anchored t).stop = (lineAnchor t e).2 := rfl
    rcases lineAnchor_stop_cases t e with ⟨_, hnonempty, _⟩ | ⟨hend, _⟩ | ⟨hend, _⟩
    · omega
    · omega
    · omega
  rw [lastLine_eq]
  refine lineOf_le t ?_
  by_contra hafter
  exact hline (getElem?_of_trimmedStop_le (by omega) hstop hinside)

end Below
end Autofix.Edit
