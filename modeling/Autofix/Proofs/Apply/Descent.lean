import Autofix.Proofs.Apply.Next
import Autofix.Proofs.Edit.Lost

/-! Fixes with several changes, made from the last line up to the first, so that each change leaves alone what
the next ones expect. -/
namespace Autofix
open Text Edit

section Step
variable {t u : Text} {e : Edit}

/-- Where a text goes on as another one up to the end of an anchor, to replace the anchor is to make the edit. -/
lemma apply_anchored_of_take_eq (he : e.Fits t) (hu : u.take (e.anchored t).stop = t.take (e.anchored t).stop) :
    (e.anchored t).apply u = e.apply u := by
  obtain ⟨hopen, hclose, hinside⟩ := anchored_bounds he
  have hle := he.le
  have hslice : ∀ p q, q ≤ (e.anchored t).stop → slice t p q = slice u p q := fun p q hq => by
    rw [← slice_take t hq, ← hu, slice_take u hq]
  calc (e.anchored t).apply u
      = u.take (e.anchored t).start ++ (slice t (e.anchored t).start e.start ++ e.replacement ++
          slice t e.stop (e.anchored t).stop) ++ u.drop (e.anchored t).stop := rfl
    _ = (u.take (e.anchored t).start ++ slice u (e.anchored t).start e.start) ++ e.replacement ++
          (slice u e.stop (e.anchored t).stop ++ u.drop (e.anchored t).stop) := by
        rw [hslice _ _ (by omega), hslice _ _ (Nat.le_refl _)]
        simp only [List.append_assoc]
    _ = e.apply u := by
        rw [take_append_slice u hopen, slice_append_drop u hclose]
        rfl

/-- A change finds its anchor where the text up to its end is the one that the change was made for. -/
lemma substitute?_of_take_eq (path : String) (ht : t ≠ []) (he : e.Fits t)
    (hu : u.take (e.anchored t).stop = t.take (e.anchored t).stop) :
    (e.toChange path t).substitute? (some (lineOf t (e.anchored t).start)) u = some (e.apply u) := by
  have ha := isAnchor_anchored ht he.le he.inside
  have hlt := ha.lt
  have hstop : (e.anchored t).start + (slice t (e.anchored t).start (e.anchored t).stop).length =
      (e.anchored t).stop := by
    rw [length_slice t ha.le]
    omega
  have hfound : find? (slice t (e.anchored t).start (e.anchored t).stop) u = some (e.anchored t).start := by
    refine find?_of_take_eq (find?_anchored t e) ?_
    rw [hstop, hu]
  have hline : lineOf u (e.anchored t).start = lineOf t (e.anchored t).start := by
    have hcut := congrArg (List.take (e.anchored t).start) hu
    rw [List.take_take, List.take_take, Nat.min_eq_left hlt.le] at hcut
    rw [lineOf, lineOf, hcut]
  rw [substitute?_carry path ht he hfound, if_pos hline.symm, hstop]
  exact congrArg some (apply_anchored_of_take_eq he hu)

end Step

/-- Edits of a text from the last to the first, so that each anchor ends before the edits that come earlier. -/
structure Descending (t : Text) (edits : List Edit) : Prop where
  fits : ∀ e ∈ edits, e.Fits t
  order : edits.Pairwise fun e f => (f.anchored t).stop ≤ e.start

def Edit.applyAll (edits : List Edit) (t : Text) : Text := edits.foldl (fun u e => e.apply u) t

section Run
variable {σ : Type} {files : Files σ} {root path place : String} {text : σ → Option Text} {t u : Text}
  {edits : List Edit} {applied : List Edit} {shifts : LineShifts} {s : σ}

lemma Descending.tail {e : Edit} (h : Descending t (e :: edits)) : Descending t edits :=
  ⟨fun f hf => h.fits f (List.mem_cons_of_mem _ hf), (List.pairwise_cons.1 h.order).2⟩

/-- Changes that are made from the last line up are all applied, and make their edits. The invariant is that the
text is the old one up to every anchor to come, and that the growths recorded so far lie below those anchors. -/
theorem applyChanges_descending (hplace : resolve root (Path.normalize path) = .ok place)
    (hkeeps : files.Keeps place text) (ht : t ≠ []) (hlines : newlines t < Json.maxWord)
    (hedits : Descending t edits) (hs : text s = some u)
    (hu : ∀ e ∈ edits, u.take (e.anchored t).stop = t.take (e.anchored t).stop)
    (hshifts : shifts.Tracks path t applied)
    (hbelow : ∀ e ∈ edits, ∀ a ∈ applied, lineOf t (e.anchored t).start ≤ a.lastLine t) :
    ∃ shifts' s', applyChanges files root (edits.map (toChange path t)) shifts s = (.ok (), shifts', s') ∧
      text s' = some (applyAll edits u) ∧
      shifts'.Tracks path t ((edits.map (anchored t)).reverse ++ applied) := by
  induction edits generalizing u shifts applied s with
  | nil => exact ⟨shifts, s, rfl, hs, hshifts⟩
  | cons e rest ih =>
    have he := hedits.fits e List.mem_cons_self
    have ha := isAnchor_anchored ht he.le he.inside
    have hexpected := hshifts.expectedLine?_of_above (e := e) hlines fun a ha hlt => by
      have := hbelow e List.mem_cons_self a ha
      omega
    have hsubst := substitute?_of_take_eq path ht he (hu e List.mem_cons_self)
    rw [← hexpected] at hsubst
    obtain ⟨s₁, hread, hs₁⟩ := hkeeps.read hs
    obtain ⟨s₂, hwrite, hs₂⟩ := hkeeps.write (e.apply u) hs₁
    have hchange := applyChange_of_write hplace hread hsubst hwrite
    have horder := (List.pairwise_cons.1 hedits.order).1
    have hlen : u.length ≥ (e.anchored t).stop := by
      have := congrArg List.length (hu e List.mem_cons_self)
      have := ha.le
      simp only [List.length_take] at *
      omega
    have hfits : e.Fits u := ⟨he.le, (anchored_bounds he).2.1.trans hlen⟩
    obtain ⟨shifts', s', happly, hs', htracks⟩ := ih hedits.tail hs₂
      (fun f hf => (take_apply_of_le hfits (horder f hf)).trans (hu f (List.mem_cons_of_mem _ hf)))
      (hshifts.record ha) (by
        intro f hf a hmem
        rcases List.mem_cons.1 hmem with rfl | hmem
        · exact lineOf_le_lastLine ht he (hedits.tail.fits f hf) (horder f hf)
        · exact hbelow f (List.mem_cons_of_mem _ hf) a hmem)
    refine ⟨shifts', s', ?_, hs', ?_⟩
    · rw [List.map_cons, applyChanges, hchange]
      exact happly
    · rw [List.map_cons, List.reverse_cons, List.append_assoc]
      exact htracks

lemma applyChanges_append {changes : List Change} {shifts' : LineShifts} {s' : σ}
    (h : applyChanges files root changes shifts s = (.ok (), shifts', s')) (more : List Change) :
    applyChanges files root (changes ++ more) shifts s = applyChanges files root more shifts' s' := by
  induction changes generalizing shifts s with
  | nil =>
    cases h
    rfl
  | cons c rest ih =>
    rw [List.cons_append, applyChanges]
    rw [applyChanges] at h
    rcases hc : applyChange files root c shifts s with ⟨_ | _, shifts₁, s₁⟩
    · rw [hc] at h
      cases h
    · rw [hc] at h
      exact ih h

end Run

/-- Edits that follow one another, made from the last to the first, each replace their stretch of the text. -/
theorem applyAll_reverse {t : Text} {edits : List Edit} (h : Between 0 edits t.length) :
    applyAll edits.reverse t = weave t 0 edits := by
  induction edits with
  | nil => rfl
  | cons e rest ih =>
    obtain ⟨_, hlt, hrest⟩ := h
    have hlast : applyAll (e :: rest).reverse t = e.apply (applyAll rest.reverse t) := by
      rw [applyAll, List.reverse_cons, List.foldl_append]
      rfl
    have hlen : (t.take e.stop).length = e.stop := List.length_take_of_le hrest.le
    have hwoven : weave t 0 rest = t.take e.stop ++ weave t e.stop rest :=
      weave_eq_slice_append hrest (Nat.zero_le _)
    rw [hlast, ih (hrest.mono (Nat.zero_le _)), hwoven, apply, splice, List.take_append_of_le_length (by omega),
      List.take_take, Nat.min_eq_left hlt.le, List.drop_append_of_le_length (by omega), List.drop_take, Nat.sub_self,
      List.take_zero, List.nil_append]
    rfl

end Autofix
