import Autofix.Apply.Shift
import Autofix.Proofs.Edit.Anchor

/-! Line shifts and what a change finds. While the anchors of edits are replaced one by one, the shifts
say on which line each of the others starts, and on that line only the anchor itself can be found. -/
namespace Autofix
open Text Edit

section Shifts
variable {path : String} {t : Text} {applied : List Edit} {a : Edit} {shifts : LineShifts}

/-- Each line of a file has moved by as much as the replaced stretches above it have grown. -/
structure LineShifts.Tracks (shifts : LineShifts) (path : String) (t : Text) (applied : List Edit) : Prop where
  replaced : shifts.replaced = []
  offset : ∀ line, shifts.offset (Path.normalize path) line =
    (applied.map fun a => if a.lastLine t < line then a.growth t else 0).sum

lemma LineShifts.tracks_nil : LineShifts.Tracks {} path t [] := ⟨rfl, fun _ => rfl⟩

lemma LineShifts.offset_eq_sum (shifts : LineShifts) (path : String) (line : Nat) :
    shifts.offset path line =
      ((shifts.shifts.filter fun shift => shift.path == path && shift.after < line).map Shift.delta).sum := by
  rw [LineShifts.offset, List.sum_eq_foldr, List.foldr_map]

lemma LineShifts.offset_append (shifts : LineShifts) (path : String) (after : Nat) (delta : Int) (line : Nat) :
    ({ shifts with shifts := shifts.shifts ++ [⟨path, after, delta⟩] } : LineShifts).offset path line =
      (if after < line then delta else 0) + shifts.offset path line := by
  simp only [LineShifts.offset_eq_sum, List.filter_append, List.map_append, List.sum_append]
  by_cases h : after < line <;> simp [h, Int.add_comm]

lemma isWholeFile_substitution (path : String) (h : a.IsAnchor t) : (a.substitution path t).isWholeFile = false := by
  simpa [substitution, Change.isWholeFile] using slice_ne_nil t h.lt h.le

lemma growth_substitution : LineShifts.growth (a.substitution path t) = a.growth t := by
  simp [LineShifts.growth, substitution, Edit.growth]

lemma LineShifts.Tracks.record (h : shifts.Tracks path t applied) (ha : a.IsAnchor t) :
    (shifts.record (a.substitution path t)).Tracks path t (a :: applied) := by
  have hend : (a.substitution path t).endLine.or (a.substitution path t).startLine = some (a.lastLine t) := rfl
  have hpath : (a.substitution path t).filePath = Path.normalize path := rfl
  simp only [LineShifts.record, isWholeFile_substitution path ha, hend, growth_substitution, hpath, Bool.false_eq_true, if_false]
  by_cases hzero : a.growth t = 0
  · rw [if_pos hzero]
    refine ⟨h.replaced, fun line => ?_⟩
    rw [List.map_cons, List.sum_cons, h.offset line, hzero, ite_self, Int.zero_add]
  · rw [if_neg hzero]
    refine ⟨h.replaced, fun line => ?_⟩
    rw [List.map_cons, List.sum_cons, ← h.offset line]
    exact LineShifts.offset_append shifts _ _ _ line

end Shifts

section Substitution
variable {front : Text} {c : Change}

/-- A change that expects its text where a line starts replaces it there, unless the same text occurs
further up. -/
theorem Change.substitute?_eq (hfront : EndsLine front) (hc : c.isWholeFile = false) (back : Text) :
    c.substitute? (some (newlines front + 1)) (front ++ c.expected.toList ++ back) =
      if find? c.expected.toList (front ++ c.expected.toList ++ back) = some front.length then
        some (front ++ c.replacement.toList ++ back)
      else none := by
  obtain ⟨t, ht⟩ : ∃ t, t = front ++ c.expected.toList ++ back := ⟨_, rfl⟩
  have hlen : front.length ≤ t.length := by
    simp only [ht, List.length_append]
    omega
  have htake : t.take front.length = front := by
    rw [ht, List.append_assoc]
    exact List.take_left
  have hdrop : t.drop front.length = c.expected.toList ++ back := by
    rw [ht, List.append_assoc]
    exact List.drop_left
  have hend : t.drop (front.length + c.expected.toList.length) = back := by
    rw [← List.drop_drop, hdrop]
    exact List.drop_left
  obtain ⟨f, hf, hle⟩ := find?_of_prefix hlen (hdrop ▸ List.prefix_append c.expected.toList back)
  have hline : lineOf t front.length = newlines front + 1 := by rw [lineOf, htake]
  rw [← ht, ← hline]
  simp only [Change.substitute?, hc, hf, Option.bind_eq_bind, Option.bind_some, Option.all_some, beq_iff_eq,
    Bool.false_eq_true, if_false, Option.some.injEq]
  by_cases hff : f = front.length
  · rw [if_pos (by rw [hff]), if_pos hff, hff, splice, htake, hend]
  · have hne : lineOf t front.length ≠ lineOf t f := fun heq =>
      hff (eq_of_lineOf_eq hle hlen (htake.symm ▸ hfront) heq.symm)
    rw [if_neg hne, if_neg hff]

end Substitution

section Anchors
variable {path : String} {t : Text} {anchors others applied : List Edit} {a : Edit} {shifts : LineShifts}

/-- Anchors that stand apart from each other, together with replacements that keep the line starts of
the others and whose line ends can be counted in a word. -/
structure Anchors (t : Text) (anchors : List Edit) : Prop where
  isAnchor : ∀ a ∈ anchors, a.IsAnchor t
  apart : anchors.Pairwise Apart
  closed : ∀ a ∈ anchors, (slice t a.start a.stop).getLast? = some '\n' → EndsLine a.replacement
  countable : newlines t + (anchors.map fun a => newlines a.replacement).sum < Json.maxWord

lemma Anchors.perm (h : Anchors t anchors) (hp : anchors.Perm others) : Anchors t others where
  isAnchor a ha := h.isAnchor a (hp.mem_iff.2 ha)
  apart := hp.pairwise h.apart Apart.symm
  closed a ha := h.closed a (hp.mem_iff.2 ha)
  countable := by
    rw [← (hp.map fun a => newlines a.replacement).sum_eq]
    exact h.countable

lemma Anchors.sublist (h : Anchors t anchors) (hs : others.Sublist anchors) : Anchors t others where
  isAnchor a ha := h.isAnchor a (hs.subset ha)
  apart := h.apart.sublist hs
  closed a ha := h.closed a (hs.subset ha)
  countable := by
    have := (hs.map fun a => newlines a.replacement).sum_le_sum fun _ _ => Nat.zero_le _
    have := h.countable
    omega

lemma Anchors.scattered (h : Anchors t anchors) : Scattered t anchors :=
  ⟨fun a ha => ⟨(h.isAnchor a ha).lt, (h.isAnchor a ha).le⟩, h.apart⟩

lemma sum_growth_le (t : Text) (edits : List Edit) :
    (edits.map (Edit.growth t)).sum ≤ ((edits.map fun a => newlines a.replacement).sum : Nat) := by
  induction edits with
  | nil => simp
  | cons a edits ih =>
    simp only [List.map_cons, List.sum_cons, Edit.growth]
    omega

section Neighbours
variable {as bs : List Edit} (h : shifts.Tracks path t applied) (hanchors : Anchors t (a :: applied))
  (hperm : (as ++ bs).Perm applied) (hbefore : Between 0 as a.start) (hafter : Between a.stop bs t.length)
include h hanchors hperm hbefore hafter

/-- Of the anchors before and after one, those before it have moved its line. Anchors stand apart, so their
lines tell which of them the shifts count. -/
lemma LineShifts.Tracks.offset_eq :
    shifts.offset (Path.normalize path) (lineOf t a.start) = (as.map (Edit.growth t)).sum := by
  have ha := hanchors.isAnchor a List.mem_cons_self
  have hiff : ∀ b ∈ as ++ bs, (b.lastLine t < lineOf t a.start ↔ b.stop ≤ a.start) := by
    intro b hb
    have hmem := hperm.mem_iff.1 hb
    have hapart := (List.pairwise_cons.1 hanchors.apart).1 b hmem
    exact lastLine_lt_iff (hanchors.isAnchor b (List.mem_cons_of_mem _ hmem)) ha hapart.symm
  have hfront : (as.map fun b => if b.lastLine t < lineOf t a.start then b.growth t else 0) =
      as.map (Edit.growth t) := by
    refine List.map_congr_left fun b hb => if_pos ?_
    exact (hiff b (List.mem_append_left _ hb)).2 (hbefore.of_mem hb).2.2
  have hback : (bs.map fun b => if b.lastLine t < lineOf t a.start then b.growth t else 0) = bs.map fun _ => 0 := by
    refine List.map_congr_left fun b hb => if_neg ?_
    rw [hiff b (List.mem_append_right _ hb)]
    have := hafter.of_mem hb
    have := ha.lt
    omega
  rw [h.offset, ← (hperm.map _).sum_eq, List.map_append, List.sum_append, hfront, hback]
  simp

/-- The shifts say on which line an anchor starts now. -/
lemma LineShifts.Tracks.expectedLine?_eq :
    shifts.expectedLine? (a.substitution path t) = some (newlines (weave (t.take a.start) 0 as) + 1) := by
  have ha := hanchors.isAnchor a List.mem_cons_self
  have hle : a.start ≤ t.length := Nat.le_trans (Nat.le_of_lt ha.lt) ha.le
  have hoffset := h.offset_eq hanchors hperm hbefore hafter
  have hlines := newlines_weave_take hbefore hle
  have hcount := ((hanchors.sublist (List.sublist_cons_self a applied)).perm hperm.symm).sublist
    (List.sublist_append_left as bs) |>.countable
  have hgrowth := sum_growth_le t as
  have htake := newlines_take_le t hle
  rw [List.take_length] at htake
  have hmove : LineShifts.moveLine (lineOf t a.start) (as.map (Edit.growth t)).sum =
      newlines (weave (t.take a.start) 0 as) + 1 := by
    simp only [LineShifts.moveLine, lineOf]
    omega
  simp [LineShifts.expectedLine?, LineShifts.currentLine?, h.replaced, substitution, hoffset, hmove]

end Neighbours

/-- In a text with some anchors replaced, another one is replaced where it stands or not at all. -/
theorem substitute?_patch (h : shifts.Tracks path t applied) (hanchors : Anchors t (a :: applied)) :
    (a.substitution path t).substitute? (shifts.expectedLine? (a.substitution path t)) (patch t applied) = none ∨
      (a.substitution path t).substitute? (shifts.expectedLine? (a.substitution path t)) (patch t applied) =
        some (patch t (a :: applied)) := by
  have ha := hanchors.isAnchor a List.mem_cons_self
  obtain ⟨as, bs, hperm, hbefore, hafter, hpatch, hcons⟩ := patch_cons hanchors.scattered
  have hin : ∀ b ∈ as, b ∈ a :: applied := fun b hb =>
    List.mem_cons_of_mem _ (hperm.mem_iff.1 (List.mem_append_left _ hb))
  have hfront : EndsLine (weave (t.take a.start) 0 as) := by
    refine endsLine_weave_take hbefore ?_ ha.opened (fun b hb => (hanchors.isAnchor b (hin b hb)).opened)
      fun b hb => hanchors.closed b (hin b hb)
    exact Nat.le_trans (Nat.le_of_lt ha.lt) ha.le
  have hexpected : (a.substitution path t).expected.toList = slice t a.start a.stop := String.toList_ofList
  have hreplacement : (a.substitution path t).replacement.toList = a.replacement := String.toList_ofList
  have hsubst := Change.substitute?_eq hfront (isWholeFile_substitution path ha) (weave t a.stop bs)
  rw [hexpected, hreplacement, ← hpatch, ← hcons] at hsubst
  rw [h.expectedLine?_eq hanchors hperm hbefore hafter, hsubst]
  split
  · exact .inr rfl
  · exact .inl rfl

end Anchors
end Autofix
