import Autofix.Proofs.Apply.Shift
import Autofix.Proofs.Text.Byte

/-! What an anchored change does to the text that it was made from: exactly its edit. The anchor is moved
up until it is the first occurrence of its text, so that is where it is found. -/
namespace Autofix.Edit
open Text

/-- The edit is one of a stretch of the text. -/
structure Fits (t : Text) (e : Edit) : Prop where
  le : e.start ≤ e.stop
  inside : e.stop ≤ t.length

section Widening
variable {t : Text} {stop : Nat}

lemma find?_slice_zero (t : Text) (stop : Nat) : find? (slice t 0 stop) t = some 0 := by
  obtain ⟨f, hf, hle⟩ := find?_of_prefix (t := t) (Nat.zero_le _) (List.take_prefix stop t)
  rw [Nat.le_zero.1 hle] at hf
  exact hf

/-- Where the widening of an anchor stops, the anchor is the first occurrence of its text. Each move shortens
the text before the anchor, and at the start of the text nothing can occur earlier. -/
theorem find?_widen {fuel start : Nat} (h : start ≤ fuel) :
    find? (slice t (widen t stop fuel start) stop) t = some (widen t stop fuel start) := by
  induction fuel generalizing start with
  | zero =>
    rw [widen, Nat.le_zero.1 h]
    exact find?_slice_zero t stop
  | succ fuel ih =>
    rw [widen]
    split
    · next hstop =>
      rcases hstop with rfl | hfound
      · exact find?_slice_zero t stop
      · exact hfound
    · have hlt : previousLineStart t start < start := previousLineStart_lt (by omega)
      exact ih (by omega)

end Widening

section Bounds
variable {t : Text} {e : Edit}

lemma lineAnchor_bounds (h : e.Fits t) :
    (lineAnchor t e).1 ≤ e.start ∧ e.stop ≤ (lineAnchor t e).2 ∧ (lineAnchor t e).2 ≤ t.length := by
  obtain ⟨hle, hstop⟩ := h
  have hstart := lineStart_le t e.start
  have hge := le_lineEnd hstop
  have hlen := lineEnd_le hstop
  have hprev : ∀ p, 0 < p → previousLineStart t p < p := fun _ => previousLineStart_lt
  simp only [lineAnchor]
  split_ifs
  all_goals grind

/-- The anchor of an edit holds the stretch that is edited. -/
theorem anchored_bounds (h : e.Fits t) :
    (e.anchored t).start ≤ e.start ∧ e.stop ≤ (e.anchored t).stop ∧ (e.anchored t).stop ≤ t.length := by
  obtain ⟨hstart, hend, hlen⟩ := lineAnchor_bounds h
  exact ⟨(widen_le t _ _ _).trans hstart, hend, hlen⟩

/-- The anchor of an edit is the first occurrence of its text. -/
theorem find?_anchored (t : Text) (e : Edit) :
    find? (slice t (e.anchored t).start (e.anchored t).stop) t = some (e.anchored t).start :=
  find?_widen (Nat.le_refl _)

/-- To replace the anchor is to make the edit. -/
theorem apply_anchored (h : e.Fits t) : (e.anchored t).apply t = e.apply t := by
  obtain ⟨hstart, hend, _⟩ := anchored_bounds h
  have hfront : t.take (e.anchored t).start ++ slice t (e.anchored t).start e.start = t.take e.start :=
    take_append_slice t hstart
  have hback : slice t e.stop (e.anchored t).stop ++ t.drop (e.anchored t).stop = t.drop e.stop :=
    slice_append_drop t hend
  calc (e.anchored t).apply t
      = (t.take (e.anchored t).start ++ slice t (e.anchored t).start e.start) ++ e.replacement ++
          (slice t e.stop (e.anchored t).stop ++ t.drop (e.anchored t).stop) := by
        simp [apply, splice, anchored]
    _ = e.apply t := by rw [hfront, hback]; rfl

end Bounds

section Substitution
variable {t : Text} {a : Edit}

/-- A change whose text is found where it was taken from replaces it there, on the line that it gives or
on any line. -/
lemma substitute?_substitution (path : String) (ha : a.IsAnchor t)
    (hfound : find? (slice t a.start a.stop) t = some a.start) {line : Option Nat}
    (hline : line.all (· == lineOf t a.start)) : (a.substitution path t).substitute? line t = some (a.apply t) := by
  have hlen : a.start + (slice t a.start a.stop).length = a.stop := by
    rw [length_slice t ha.le]
    have := ha.lt
    omega
  rw [Change.substitute?, isWholeFile_substitution path ha]
  simp [substitution, hfound, hline, apply, hlen]

lemma substitute?_nil (path : String) (e : Edit) (line : Option Nat) :
    (e.toChange path []).substitute? line [] = some (e.apply []) := by
  have hempty : (e.toChange path []).isWholeFile = true := by
    simp [toChange_eq, substitution, Change.isWholeFile, slice]
  rw [Change.substitute?, if_pos hempty]
  simp [toChange_eq, substitution, anchored, apply, splice, slice]

/-- The change that is made from an edit of a text makes that edit of the text, whether or not the line
is checked. -/
theorem substitute?_toChange (path : String) {e : Edit} (h : e.Fits t) {line : Option Nat}
    (hline : line = (e.toChange path t).startLine ∨ line = none) :
    (e.toChange path t).substitute? line t = some (e.apply t) := by
  by_cases ht : t = []
  · subst ht
    exact substitute?_nil path e line
  · have ha := isAnchor_anchored ht h.le h.inside
    rw [toChange_eq, ← apply_anchored h]
    refine substitute?_substitution path ha (find?_anchored t e) ?_
    rcases hline with rfl | rfl
    · simp [toChange_eq, substitution]
    · rfl

end Substitution

/-- Anchored edits splice exactly. For a range of bytes on character boundaries, the anchor holds the range
and is the first occurrence of its text, so the search for it has come to its end; and the change that
replaces the anchor turns the text into what stands before the range, the replacement and what stands after
the range. -/
theorem toChange_splices (path : String) (t replacement : Text) (first last start stop : Nat)
    (hfirst : ofByteOffset? t first = some start) (hlast : ofByteOffset? t last = some stop) (hle : first ≤ last)
    (hlen : last ≤ byteSize t) :
    let e : Edit := ⟨start, stop, replacement⟩
    let a := e.anchored t
    (a.start ≤ start ∧ start ≤ stop ∧ stop ≤ a.stop ∧ a.stop ≤ t.length ∧
        find? (slice t a.start a.stop) t = some a.start) ∧
      ∀ line, line = (e.toChange path t).startLine ∨ line = none →
        ∃ u, (e.toChange path t).substitute? line t = some u ∧
          encodeText u = (encodeText t).extract 0 first ++ encodeText replacement ++
            (encodeText t).extract last (encodeText t).size := by
  obtain ⟨hstart, rfl⟩ := byteOffset_of_ofByteOffset? hfirst (hle.trans hlen)
  obtain ⟨hstop, rfl⟩ := byteOffset_of_ofByteOffset? hlast hlen
  have hrange : start ≤ stop := le_of_byteOffset_le hstart hle
  intro e a
  have hfits : e.Fits t := ⟨hrange, hstop⟩
  obtain ⟨hopen, hclose, hinside⟩ := anchored_bounds hfits
  refine ⟨⟨hopen, hrange, hclose, hinside, find?_anchored t e⟩, fun line hline => ?_⟩
  refine ⟨e.apply t, substitute?_toChange path hfits hline, ?_⟩
  rw [extract_byteOffset, extract_from_byteOffset, ← encodeText_append, ← encodeText_append]
  rfl

theorem toChange_splices_copy :
    let t := "é\nb\né\n".toList
    let e : Edit := ⟨4, 5, "e".toList⟩
    ofByteOffset? t 5 = some 4 ∧ ofByteOffset? t 7 = some 5 ∧ (e.anchored t).start = 2 ∧
      ∃ u, (e.toChange "a.ts" t).substitute? (some 2) t = some u ∧
        encodeText u = (encodeText t).extract 0 5 ++ encodeText "e".toList ++
          (encodeText t).extract 7 (encodeText t).size := by
  have hsplices := toChange_splices "a.ts" "é\nb\né\n".toList "e".toList 5 7 4 5 (by decide +kernel)
    (by decide +kernel) (by decide) (by decide +kernel)
  exact ⟨by decide +kernel, by decide +kernel, by decide +kernel,
    hsplices.2 (some 2) (.inl (by decide +kernel))⟩

end Autofix.Edit
