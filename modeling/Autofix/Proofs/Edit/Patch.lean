import Autofix.Edit.Anchor
import Autofix.Proofs.Text.Line
import Mathlib

/-! Patches: a text with the stretches of several edits replaced, wherever they stand and in whatever
order they are listed. -/
namespace Autofix.Edit
open Text

/-- The text from a position on with the stretches of edits, listed in the order in which they stand,
replaced. -/
def weave (t : Text) (position : Nat) : List Edit → Text
  | [] => t.drop position
  | e :: rest => slice t position e.start ++ e.replacement ++ weave t e.stop rest

/-- The text with the stretches of edits replaced. -/
def patch (t : Text) (edits : List Edit) : Text := weave t 0 (edits.insertionSort fun a b => a.start ≤ b.start)

/-- One edit stands before the other. -/
def Apart (a b : Edit) : Prop := a.stop ≤ b.start ∨ b.stop ≤ a.start

instance (a b : Edit) : Decidable (a.Apart b) := inferInstanceAs (Decidable (_ ∨ _))

/-- By how many lines an edit makes a text longer. -/
def growth (t : Text) (e : Edit) : Int := (newlines e.replacement : Int) - newlines (slice t e.start e.stop)

/-- Edits that stand one after another from one position to another. -/
def Between (start : Nat) : List Edit → Nat → Prop
  | [], stop => start ≤ stop
  | e :: rest, stop => start ≤ e.start ∧ e.start < e.stop ∧ Between e.stop rest stop

section Between
variable {t : Text} {p k : Nat} {as bs : List Edit}

lemma Between.le (h : Between p as k) : p ≤ k := by
  induction as generalizing p with
  | nil => exact h
  | cons a as ih =>
    obtain ⟨ha, hlt, hrest⟩ := h
    have := ih hrest
    omega

lemma Between.of_mem (h : Between p as k) {a : Edit} (ha : a ∈ as) : p ≤ a.start ∧ a.start < a.stop ∧ a.stop ≤ k := by
  induction as generalizing p with
  | nil => cases ha
  | cons b as ih =>
    obtain ⟨hp, hlt, hrest⟩ := h
    rcases List.mem_cons.1 ha with rfl | ha
    · exact ⟨hp, hlt, hrest.le⟩
    · have := ih hrest ha
      omega

lemma Between.mono (h : Between k bs p) {j : Nat} (hj : j ≤ k) : Between j bs p := by
  cases bs with
  | nil => exact Nat.le_trans hj h
  | cons b bs => exact ⟨Nat.le_trans hj h.1, h.2⟩

lemma Between.pairwise_start (h : Between p as k) : as.Pairwise fun a b => a.start ≤ b.start := by
  induction as generalizing p with
  | nil => exact .nil
  | cons a as ih =>
    obtain ⟨_, hlt, hrest⟩ := h
    exact .cons (fun b hb => hlt.le.trans (hrest.of_mem hb).1) (ih hrest)

lemma between_of_pairwise (hpk : p ≤ k) (h : as.Pairwise fun a b => a.stop ≤ b.start)
    (hb : ∀ a ∈ as, p ≤ a.start ∧ a.start < a.stop ∧ a.stop ≤ k) : Between p as k := by
  induction as generalizing p with
  | nil => exact hpk
  | cons a as ih =>
    rw [List.pairwise_cons] at h
    rw [List.forall_mem_cons] at hb
    obtain ⟨⟨hp, hlt, hk⟩, hb⟩ := hb
    exact ⟨hp, hlt, ih hk h.2 fun b hmem => ⟨h.1 b hmem, (hb b hmem).2⟩⟩

lemma weave_eq_slice_append (h : Between k bs t.length) (hp : p ≤ k) : weave t p bs = slice t p k ++ weave t k bs := by
  cases bs with
  | nil => exact (slice_append_drop t hp).symm
  | cons b bs =>
    rw [weave, weave, ← slice_append_slice t hp h.1]
    simp only [List.append_assoc]

lemma weave_append (ha : Between p as k) (hb : Between k bs t.length) :
    weave t p (as ++ bs) = weave (t.take k) p as ++ weave t k bs := by
  induction as generalizing p with
  | nil => exact weave_eq_slice_append hb ha
  | cons a as ih =>
    obtain ⟨_, hlt, hrest⟩ := ha
    have hstart : a.start ≤ k := by
      have := hrest.le
      omega
    rw [List.cons_append, weave, weave, ih hrest, slice_take t hstart]
    simp only [List.append_assoc]

lemma newlines_weave (h : Between p as t.length) :
    (newlines (weave t p as) : Int) = newlines (t.drop p) + (as.map (growth t)).sum := by
  induction as generalizing p with
  | nil => simp [weave]
  | cons a as ih =>
    obtain ⟨hp, hlt, hrest⟩ := h
    have hdrop : newlines (t.drop p) = newlines (slice t p a.start) + newlines (slice t a.start a.stop) +
        newlines (t.drop a.stop) := by
      rw [← slice_append_drop t hp, ← slice_append_drop t (Nat.le_of_lt hlt), newlines_append, newlines_append,
        Nat.add_assoc]
    rw [weave, newlines_append, newlines_append, List.map_cons, List.sum_cons, growth, hdrop]
    push_cast
    rw [ih hrest]
    omega

/-- A weave ends with a line end if the text does, and if no edit takes one away without another one to
take its place. -/
lemma endsLine_weave (h : Between p as t.length) (ht : EndsLine t) (hstart : ∀ a ∈ as, EndsLine (t.take a.start))
    (hkeep : ∀ a ∈ as, (slice t a.start a.stop).getLast? = some '\n' → EndsLine a.replacement) :
    EndsLine (weave t p as) := by
  induction as generalizing p with
  | nil =>
    rw [← List.take_append_drop p t] at ht
    exact ht.of_append
  | cons a as ih =>
    obtain ⟨hp, hlt, hrest⟩ := h
    rw [List.forall_mem_cons] at hstart hkeep
    rw [weave]
    refine (ih hrest hstart.2 hkeep.2).append fun hempty => ?_
    have hstop : EndsLine (t.take a.stop) := by
      cases as with
      | nil => rwa [List.take_of_length_le (List.drop_eq_nil_iff.1 hempty)]
      | cons b bs =>
        have hslice : slice t a.stop b.start = [] := by
          rw [weave, List.append_eq_nil_iff, List.append_eq_nil_iff] at hempty
          exact hempty.1.1
        have hb := hrest.of_mem List.mem_cons_self
        have hab : a.stop = b.start := by
          by_contra hne
          exact slice_ne_nil t (by omega) (by omega) hslice
        rw [hab]
        exact hstart.2 b List.mem_cons_self
    have hlast : (slice t a.start a.stop).getLast? = some '\n' := by
      rw [← take_append_slice t (Nat.le_of_lt hlt)] at hstop
      exact hstop.getLast?_eq (slice_ne_nil t hlt hrest.le)
    refine (hkeep.1 hlast).append fun _ => ?_
    have hline := hstart.1
    rw [← take_append_slice t hp] at hline
    exact hline.of_append

lemma growth_take {k : Nat} {a : Edit} (h : a.stop ≤ k) : growth (t.take k) a = growth t a := by
  rw [growth, growth, slice_take t h]

lemma newlines_weave_take (h : Between 0 as k) (hk : k ≤ t.length) :
    (newlines (weave (t.take k) 0 as) : Int) = newlines (t.take k) + (as.map (growth t)).sum := by
  have hgrowth : as.map (growth (t.take k)) = as.map (growth t) :=
    List.map_congr_left fun a ha => growth_take (h.of_mem ha).2.2
  rw [newlines_weave (by rwa [List.length_take_of_le hk]), hgrowth, List.drop_zero]

lemma endsLine_weave_take (h : Between 0 as k) (hk : k ≤ t.length) (ht : EndsLine (t.take k))
    (hstart : ∀ a ∈ as, EndsLine (t.take a.start))
    (hkeep : ∀ a ∈ as, (slice t a.start a.stop).getLast? = some '\n' → EndsLine a.replacement) :
    EndsLine (weave (t.take k) 0 as) := by
  refine endsLine_weave (by rwa [List.length_take_of_le hk]) ht (fun a ha => ?_) fun a ha => ?_
  · have := h.of_mem ha
    rw [List.take_take, Nat.min_eq_left (by omega)]
    exact hstart a ha
  · rw [slice_take t (h.of_mem ha).2.2]
    exact hkeep a ha

end Between

section Sorting
variable {t : Text} {c : Edit} {edits others : List Edit}

/-- Edits that each replace some part of a text and stand apart from each other. -/
structure Scattered (t : Text) (edits : List Edit) : Prop where
  inside : ∀ e ∈ edits, e.start < e.stop ∧ e.stop ≤ t.length
  apart : edits.Pairwise Apart

lemma Apart.symm {a b : Edit} (h : a.Apart b) : b.Apart a := Or.symm h

lemma Scattered.perm (h : Scattered t edits) (hp : edits.Perm others) : Scattered t others :=
  ⟨fun e he => h.inside e (hp.mem_iff.2 he), hp.pairwise h.apart Apart.symm⟩

lemma Scattered.of_cons (h : Scattered t (c :: edits)) : Scattered t edits :=
  ⟨(List.forall_mem_cons.1 h.inside).2, (List.pairwise_cons.1 h.apart).2⟩

lemma le_total_start (a b : Edit) : a.start ≤ b.start ∨ b.start ≤ a.start := Nat.le_total _ _

instance : Std.Total fun a b : Edit => a.start ≤ b.start := ⟨le_total_start⟩

instance : IsTrans Edit fun a b => a.start ≤ b.start := ⟨fun _ _ _ => Nat.le_trans⟩

lemma Scattered.pairwise_sort (h : Scattered t edits) :
    (edits.insertionSort fun a b => a.start ≤ b.start).Pairwise fun a b => a.stop ≤ b.start := by
  have hs := h.perm (List.perm_insertionSort (fun a b => a.start ≤ b.start) edits).symm
  have hsorted := List.pairwise_insertionSort (fun a b : Edit => a.start ≤ b.start) edits
  refine (hsorted.and hs.apart).imp_of_mem fun {a b} ha hb hab => ?_
  have hin := hs.inside b hb
  rcases hab.2 with h | h
  · exact h
  · have := hab.1
    omega

lemma patch_eq_weave (h : Between 0 edits t.length) : patch t edits = weave t 0 edits := by
  have hsorted : edits.Pairwise fun a b => a.start ≤ b.start := h.pairwise_start
  rw [patch, hsorted.insertionSort_eq]

/-- Whatever the order of edits that stand apart, the patched text is the same. -/
theorem patch_perm (h : Scattered t edits) (hp : edits.Perm others) : patch t edits = patch t others := by
  have hsort : (edits.insertionSort fun a b => a.start ≤ b.start) =
      others.insertionSort fun a b => a.start ≤ b.start := by
    have hperm := ((List.perm_insertionSort (fun a b : Edit => a.start ≤ b.start) edits).trans hp).trans
      (List.perm_insertionSort (fun a b : Edit => a.start ≤ b.start) others).symm
    refine hperm.eq_of_pairwise (fun a b ha hb hab hba => ?_) h.pairwise_sort (h.perm hp).pairwise_sort
    have hina := h.inside a ((List.mem_insertionSort _).1 ha)
    have hinb := (h.perm hp).inside b ((List.mem_insertionSort _).1 hb)
    omega
  rw [patch, patch, hsort]

/-- An edit that stands apart from the edits of a patch finds its stretch untouched in the patched text,
between what is woven before it and what is woven after it. -/
theorem patch_cons (h : Scattered t (c :: edits)) :
    ∃ as bs, (as ++ bs).Perm edits ∧ Between 0 as c.start ∧ Between c.stop bs t.length ∧
      patch t edits = weave (t.take c.start) 0 as ++ slice t c.start c.stop ++ weave t c.stop bs ∧
      patch t (c :: edits) = weave (t.take c.start) 0 as ++ c.replacement ++ weave t c.stop bs := by
  have hsorted := h.pairwise_sort
  have hperm := List.perm_insertionSort (fun a b : Edit => a.start ≤ b.start) edits
  have hsplit := List.takeWhile_append_dropWhile (p := fun b : Edit => decide ¬ c.start ≤ b.start)
    (l := edits.insertionSort fun a b => a.start ≤ b.start)
  have hcons := List.insertionSort_cons_eq_take_drop (fun a b : Edit => a.start ≤ b.start) c edits
  generalize (edits.insertionSort fun a b => a.start ≤ b.start).takeWhile _ = as at hsplit hcons
  generalize (edits.insertionSort fun a b => a.start ≤ b.start).dropWhile _ = bs at hsplit hcons
  rw [← hsplit] at hperm
  rw [hcons, List.pairwise_append, List.pairwise_cons] at hsorted
  obtain ⟨has, ⟨hcb, hbs⟩, hac⟩ := hsorted
  obtain ⟨hlt, hle⟩ := h.inside c List.mem_cons_self
  have hin := h.of_cons.inside
  have hbefore : Between 0 as c.start := by
    refine between_of_pairwise (Nat.zero_le _) has fun a ha => ⟨Nat.zero_le _, ?_, hac a ha c List.mem_cons_self⟩
    exact (hin a (hperm.mem_iff.1 (List.mem_append_left _ ha))).1
  have hafter : Between c.stop bs t.length :=
    between_of_pairwise hle hbs fun b hb => ⟨hcb b hb, hin b (hperm.mem_iff.1 (List.mem_append_right _ hb))⟩
  have hfrom : Between c.start bs t.length := hafter.mono (Nat.le_of_lt hlt)
  refine ⟨as, bs, hperm, hbefore, hafter, ?_, ?_⟩
  · rw [patch, ← hsplit, weave_append hbefore hfrom, weave_eq_slice_append hafter (Nat.le_of_lt hlt),
      List.append_assoc]
  · have hcut : Between c.start (c :: bs) t.length := ⟨Nat.le_refl _, hlt, hafter⟩
    rw [patch, hcons, weave_append hbefore hcut, weave, slice_self, List.nil_append, List.append_assoc]

end Sorting
end Autofix.Edit
