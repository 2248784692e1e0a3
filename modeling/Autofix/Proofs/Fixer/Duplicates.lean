import Autofix.Proofs.Apply.Again

/-! Imports that repeat earlier ones. They are deleted from the last to the first, and each deletion is found by the
whole lines that it was made for. So all are made if no two of the imports share a line, and if two of them do, the
first of the two is stale and stays, with all that stand before it. -/
namespace Autofix
open Text Edit

namespace Edit
variable {t : Text} {q : Nat}

/-- The line of an edit, after the edit and edits of later lines. -/
lemma lineAt_weave_cons {e : Edit} {edits : List Edit} (he : e.InLine t)
    (hedits : edits = [] ∨ Between (lineEnd t e.start + 1) edits t.length) (hq : lineStart t e.start ≤ q)
    (hq' : q ≤ e.start) :
    lineAt (weave t 0 (e :: edits)) q =
      slice t (lineStart t e.start) e.start ++ e.replacement ++ slice t e.stop (lineEnd t e.start) := by
  have hstart := he.fits.le.trans he.inside
  have hfrom : Between (lineEnd t e.start) edits t.length := by
    rcases hedits with rfl | h
    · exact lineEnd_le hstart
    · exact h.mono (Nat.le_succ _)
  have hclosed : weave t (lineEnd t e.start) edits = [] ∨ (weave t (lineEnd t e.start) edits).head? = some '\n' := by
    rcases hedits with rfl | h
    · exact drop_lineEnd_cases hstart
    · rw [weave_eq_slice_append h (Nat.le_succ _), slice_lineEnd_succ hstart h.le]
      exact .inr rfl
  have hflat : newlines (slice t (lineStart t e.start) e.start ++ e.replacement ++
      slice t e.stop (lineEnd t e.start)) = 0 := by
    have hline := newlines_slice_lineEnd hstart
    rw [← slice_append_slice t he.lt.le he.inLine, newlines_append] at hline
    rw [newlines_append, newlines_append, newlines_slice_lineStart, he.flat]
    omega
  have hsplit : weave t 0 (e :: edits) = t.take (lineStart t e.start) ++ (slice t (lineStart t e.start) e.start ++
      e.replacement ++ slice t e.stop (lineEnd t e.start)) ++ weave t (lineEnd t e.start) edits := by
    have hfront : slice t 0 e.start = t.take (lineStart t e.start) ++ slice t (lineStart t e.start) e.start := by
      rw [take_append_slice t (lineStart_le t e.start)]
      rfl
    rw [weave, hfront, weave_eq_slice_append hfrom he.inLine]
    simp only [List.append_assoc]
  have hlen : (t.take (lineStart t e.start)).length = lineStart t e.start :=
    List.length_take_of_le ((lineStart_le t e.start).trans hstart)
  have hline := lineAt_append (k := q - lineStart t e.start) (endsLine_take_lineStart t e.start) hflat hclosed (by
    rw [List.length_append, List.length_append, length_slice t hstart]
    omega)
  rwa [← hsplit, hlen, Nat.add_sub_of_le hq] at hline

/-- A change is stale if another one before it has made the line shorter on which its edit starts. -/
lemma substitute?_of_shortened (path : String) {e g : Edit} {edits : List Edit} (he : e.InLine t) (hg : g.Fits t)
    (hline : lineOf t g.start = lineOf t e.start) (hle : g.start ≤ e.start)
    (hshort : e.replacement.length < e.stop - e.start)
    (hedits : edits = [] ∨ Between (lineEnd t e.start + 1) edits t.length) :
    (g.toChange path t).substitute? (some (lineOf t (g.anchored t).start)) (weave t 0 (e :: edits)) = none := by
  have hstart := he.fits.le.trans he.inside
  have hlen : (t.take e.start).length = e.start := List.length_take_of_le hstart
  obtain ⟨hopen, hclose⟩ := lineBounds_of_lineOf_eq hle hstart hline
  have hfront : ∃ rest, weave t 0 (e :: edits) = t.take e.start ++ rest := ⟨_, List.append_assoc ..⟩
  obtain ⟨rest, hrest⟩ := hfront
  have ht : t ≠ [] := by
    rintro rfl
    exact absurd he.lt (by have := he.inside; simp only [List.length_nil] at this; omega)
  refine substitute?_of_lost path ht hg (q := g.start) ?_ ?_ fun hin => ?_
  · rw [hrest, List.length_append]
    omega
  · rw [lineOf, hrest, List.take_append_of_le_length (by omega), List.take_take, Nat.min_eq_left hle]
    exact Nat.add_comm ..
  · have hfrom := lineStart_le t g.start
    rw [lineAt_weave_cons he hedits (by omega) hle] at hin
    have hshorter := hin.length_le
    have hline := length_lineAt (hle.trans hstart)
    have hin := he.inLine
    simp only [List.length_append, length_slice t hstart, length_slice t (lineEnd_le hstart)] at hshorter
    omega

end Edit

namespace Imports

section Repeated
variable {source : Text} {seen : List Text} {imports before after : List Span} {s : Span}

lemma repeated_append (source : Text) (seen : List Text) (before after : List Span) :
    ∃ seen', repeated source seen (before ++ after) = repeated source seen before ++ repeated source seen' after ∧
      ∀ key, key ∈ seen' ↔ key ∈ seen ∨ ∃ j ∈ before, collapse (textOf source j) = key := by
  induction before generalizing seen with
  | nil => exact ⟨seen, rfl, by simp⟩
  | cons s rest ih =>
    by_cases hs : collapse (textOf source s) ∈ seen
    · obtain ⟨seen', heq, hseen⟩ := ih seen
      refine ⟨seen', ?_, fun key => ?_⟩
      · simp [repeated, hs, heq]
      · rw [hseen]
        grind
    · obtain ⟨seen', heq, hseen⟩ := ih (collapse (textOf source s) :: seen)
      refine ⟨seen', ?_, fun key => ?_⟩
      · simp [repeated, hs, heq]
      · rw [hseen]
        grind

/-- An import is repeated just when one that stands before it has the same words. -/
theorem mem_repeated_iff (hnodup : (before ++ s :: after).Nodup) :
    s ∈ repeated source [] (before ++ s :: after) ↔
      ∃ j ∈ before, collapse (textOf source j) = collapse (textOf source s) := by
  obtain ⟨seen', heq, hseen⟩ := repeated_append source [] before (s :: after)
  rw [List.nodup_append, List.nodup_cons] at hnodup
  have hbefore : s ∉ repeated source [] before := fun h =>
    hnodup.2.2 s ((repeated_sublist ..).subset h) s List.mem_cons_self rfl
  have hafter : ∀ seen, s ∉ repeated source seen after := fun seen h =>
    hnodup.2.1.1 ((repeated_sublist ..).subset h)
  have hkey := hseen (collapse (textOf source s))
  rw [List.mem_nil_iff, false_or] at hkey
  rw [heq, List.mem_append, or_iff_right hbefore, ← hkey, repeated]
  split
  · next hin => simpa using hin
  · next hin => simpa [hafter] using hin

end Repeated

section Deletions
variable {t : Text} {imports others : List Span} {a b : Span}

/-- Statements of a text, none of them empty, in the order in which they stand. -/
structure Listed (t : Text) (imports : List Span) : Prop where
  inside : ∀ s ∈ imports, s.start < s.stop ∧ s.stop ≤ t.length
  order : imports.Pairwise fun a b => a.stop ≤ b.start

/-- Each statement ends on a line before the one on which the next ones start. -/
def OnSeparateLines (t : Text) (imports : List Span) : Prop :=
  imports.Pairwise fun a b => lineOf t a.stop < lineOf t b.start

instance (t : Text) (imports : List Span) : Decidable (OnSeparateLines t imports) :=
  inferInstanceAs (Decidable (List.Pairwise _ _))

lemma Listed.sublist (h : Listed t imports) (hs : others.Sublist imports) : Listed t others :=
  ⟨fun s hmem => h.inside s (hs.subset hmem), h.order.sublist hs⟩

lemma Listed.nodup (h : Listed t imports) : imports.Nodup := by
  refine h.order.imp_of_mem fun {a b} ha _ hab heq => ?_
  have hlt := (h.inside a ha).1
  rw [← heq] at hab
  omega

lemma Listed.between (h : Listed t imports) (hlines : OnSeparateLines t imports) {p : Nat} (hp : p ≤ t.length)
    (hstart : ∀ s ∈ imports, p ≤ lineStart t s.start) : Between p (deletions t imports) t.length := by
  refine between_of_pairwise hp ?_ fun e he => ?_
  · refine List.pairwise_map.2 (hlines.imp_of_mem fun {a b} ha hb hab => ?_)
    have hend := deletion_bounds a.start (h.inside a ha).2
    have hopen := deletion_bounds b.start (h.inside b hb).2
    have hnext := lineEnd_lt_lineStart (h.inside a ha).2 hab
    omega
  · obtain ⟨s, hs, rfl⟩ := List.mem_map.1 he
    obtain ⟨hlt, hstop⟩ := h.inside s hs
    have hbounds := deletion_bounds s.start hstop
    have hfirst := hstart s hs
    exact ⟨by omega, by omega, (fits_deletion hlt.le hstop).inside⟩

lemma Listed.descending (h : Listed t imports) (hlines : OnSeparateLines t imports) :
    Descending t (deletions t imports).reverse where
  fits e he := by
    obtain ⟨s, hs, rfl⟩ := List.mem_map.1 (List.mem_reverse.1 he)
    exact fits_deletion (h.inside s hs).1.le (h.inside s hs).2
  order := by
    rw [List.pairwise_reverse]
    refine List.pairwise_map.2 (hlines.imp_of_mem fun {a b} ha hb hab => ?_)
    have hend := anchored_deletion_stop_le (h.inside a ha).1 (h.inside a ha).2
    have hopen := deletion_bounds b.start (h.inside b hb).2
    have hnext := lineEnd_lt_lineStart (h.inside a ha).2 hab
    omega

end Deletions

section Run
variable {σ : Type} {files : Files σ} {root path place : String} {text : σ → Option Text} {t : Text} {s : σ}
  {imports : List Span}

/-- The changes that delete statements on separate lines are all applied. -/
theorem Listed.applyChanges (h : Listed t imports) (hseparate : OnSeparateLines t imports)
    (hplace : resolve root (Path.normalize path) = .ok place) (hkeeps : files.Keeps place text) (ht : t ≠ [])
    (hlines : newlines t < Json.maxWord) (hs : text s = some t) :
    ∃ shifts s', Autofix.applyChanges files root ((deletions t imports).reverse.map (toChange path t)) {} s =
        (.ok (), shifts, s') ∧
      text s' = some (patch t (deletions t imports)) ∧
      shifts.Tracks path t ((deletions t imports).map (anchored t)) := by
  have hbetween := h.between hseparate (Nat.zero_le _) fun _ _ => Nat.zero_le _
  obtain ⟨shifts, s', happly, hs', htracks⟩ := applyChanges_descending hplace hkeeps ht hlines
    (h.descending hseparate) hs (fun _ _ => rfl) LineShifts.tracks_nil (fun _ _ _ ha => (List.not_mem_nil ha).elim)
  rw [applyAll_reverse hbetween, ← patch_eq_weave hbetween] at hs'
  rw [List.map_reverse, List.reverse_reverse, List.append_nil] at htracks
  exact ⟨shifts, s', happly, hs', htracks⟩

end Run

section Shared
variable {path : String} {t : Text} {a b : Span} {later : List Span} {shifts : LineShifts}

/-- A statement on one line, with more than blanks. -/
structure Inline (t : Text) (s : Span) : Prop where
  line : lineOf t s.start = lineOf t s.stop
  solid : isBlankText (textOf t s) = false

lemma deletion_of_inline (h : Listed t [a, b]) (ha : Inline t a) (hb : Inline t b)
    (hshared : lineOf t a.stop = lineOf t b.start) :
    (lineStart t a.start = lineStart t b.start ∧ lineEnd t a.start = lineEnd t b.start) ∧
      deletion t a.start a.stop = ⟨a.start, a.stop, []⟩ ∧ deletion t b.start b.stop = ⟨b.start, b.stop, []⟩ ∧
      InLine t ⟨a.start, a.stop, []⟩ ∧ InLine t ⟨b.start, b.stop, []⟩ := by
  obtain ⟨hain, hbin⟩ : (a.start < a.stop ∧ a.stop ≤ t.length) ∧ b.start < b.stop ∧ b.stop ≤ t.length :=
    ⟨h.inside a (by simp), h.inside b (by simp)⟩
  have horder : a.stop ≤ b.start := by simpa using h.order
  have hbounds := lineBounds_of_lineOf_eq (p := a.start) (q := b.start) (by omega) (by omega) (ha.line.trans hshared)
  have hend := lineBounds_of_lineOf_eq hain.1.le hain.2 ha.line
  have hend' := lineBounds_of_lineOf_eq hbin.1.le hbin.2 hb.line
  have hclose := le_lineEnd hbin.2
  have hclose' := le_lineEnd hain.2
  have hopen := lineStart_le t a.start
  refine ⟨⟨hbounds.1.symm, hbounds.2.symm⟩, ?_, ?_, ⟨hain.1, by simp only; omega, hain.2, rfl⟩,
    ⟨hbin.1, by simp only; omega, hbin.2, rfl⟩⟩
  · exact deletion_of_shared hb.solid hbin.1.le (.inl ⟨horder, by omega⟩)
  · exact deletion_of_shared ha.solid hain.1.le (.inr ⟨by omega, horder⟩)

/-- A statement that shares its line with the next one is not found any more when that is deleted. Neither the
deletion on the line itself nor those below it move the line. -/
lemma substitute?_of_shared (h : Listed t (a :: b :: later)) (hseparate : OnSeparateLines t (b :: later))
    (ha : Inline t a) (hb : Inline t b) (hshared : lineOf t a.stop = lineOf t b.start)
    (hlines : newlines t < Json.maxWord)
    (hshifts : shifts.Tracks path t ((deletions t (b :: later)).map (anchored t))) :
    ((deletion t a.start a.stop).toChange path t).substitute?
        (shifts.expectedLine? ((deletion t a.start a.stop).toChange path t)) (patch t (deletions t (b :: later))) =
      none := by
  have hpair : Listed t [a, b] := h.sublist (((List.nil_sublist later).cons_cons b).cons_cons a)
  obtain ⟨⟨hopen, hclose⟩, hcuta, hcutb, hina, hinb⟩ := deletion_of_inline hpair ha hb hshared
  have horder : a.stop ≤ b.start := by simpa using hpair.order
  have ht : t ≠ [] := List.ne_nil_of_length_pos (by have := hina.lt; have := hina.inside; simp only at *; omega)
  have hnext : ∀ x ∈ later, lineEnd t b.start < lineStart t x.start := fun x hx => by
    rw [← (lineBounds_of_lineOf_eq hinb.lt.le hinb.inside hb.line).2]
    exact lineEnd_lt_lineStart hinb.inside ((List.pairwise_cons.1 hseparate).1 x hx)
  have hlater := h.sublist ((List.sublist_cons_self b later).cons a)
  have hbetween : Between 0 (deletions t (b :: later)) t.length :=
    (h.sublist (List.sublist_cons_self ..)).between hseparate (Nat.zero_le _) fun _ _ => Nat.zero_le _
  have hbelow : deletions t later = [] ∨ Between (lineEnd t b.start + 1) (deletions t later) t.length := by
    cases later with
    | nil => exact .inl rfl
    | cons x rest =>
      have hx := hnext x List.mem_cons_self
      have hlen := lineStart_le_length t x.start
      exact .inr (hlater.between (List.pairwise_cons.1 hseparate).2 (by omega) hnext)
  have hpatch : patch t (deletions t (b :: later)) = weave t 0 (⟨b.start, b.stop, []⟩ :: deletions t later) := by
    rw [patch_eq_weave hbetween, deletions, List.map_cons, hcutb]
    rfl
  have hexpected : shifts.expectedLine? (toChange path t ⟨a.start, a.stop, []⟩) =
      some (lineOf t (anchored t ⟨a.start, a.stop, []⟩).start) := by
    refine hshifts.expectedLine?_of_above hlines fun d hd hlt => ?_
    obtain ⟨e, he, rfl⟩ := List.mem_map.1 hd
    obtain ⟨x, hx, rfl⟩ := List.mem_map.1 he
    rcases List.mem_cons.1 hx with rfl | hx
    · rw [hcutb, growth_anchored hinb.fits, hinb.growth]
    · obtain ⟨hxlt, hxstop⟩ := hlater.inside x hx
      have hstart := (deletion_bounds x.start hxstop).1
      have := hnext x hx
      have hle := lineOf_le_lastLine ht (fits_deletion hxlt.le hxstop) hina.fits (by
        rw [hina.anchored_stop]
        simp only
        omega)
      omega
  rw [hcuta, hexpected, hpatch]
  exact substitute?_of_shortened path hinb hina.fits (ha.line.trans hshared) (hina.lt.le.trans horder)
    (Nat.sub_pos_of_lt hinb.lt) hbelow

lemma exists_last_of_not_pairwise {α : Type} {R : α → α → Prop} {l : List α} (h : ¬ l.Pairwise R) :
    ∃ earlier a later, l = earlier ++ a :: later ∧ later.Pairwise R ∧ ¬ ∀ b ∈ later, R a b := by
  induction l with
  | nil => exact absurd .nil h
  | cons x rest ih =>
    by_cases hrest : rest.Pairwise R
    · exact ⟨[], x, rest, rfl, hrest, fun hx => h (.cons hx hrest)⟩
    · obtain ⟨earlier, a, later, rfl, hlater⟩ := ih hrest
      exact ⟨x :: earlier, a, later, rfl, hlater⟩

/-- Of statements that do not all stand on separate lines, the last two that share one. -/
lemma Listed.exists_shared {again : List Span} (h : Listed t again) (hinline : ∀ x ∈ again, Inline t x)
    (hshared : ¬ OnSeparateLines t again) :
    ∃ earlier a b later, again = earlier ++ a :: b :: later ∧ OnSeparateLines t (b :: later) ∧
      lineOf t a.stop = lineOf t b.start := by
  obtain ⟨earlier, a, later, rfl, hseparate, ha⟩ := exists_last_of_not_pairwise hshared
  have hlisted := h.sublist (List.sublist_append_right earlier (a :: later))
  cases later with
  | nil => exact absurd (fun _ hx => (List.not_mem_nil hx).elim) ha
  | cons b later =>
    refine ⟨earlier, a, b, later, rfl, hseparate, ?_⟩
    have hab := lineOf_le t ((List.pairwise_cons.1 hlisted.order).1 b List.mem_cons_self)
    by_contra hne
    refine ha fun x hx => ?_
    rcases List.mem_cons.1 hx with rfl | hx
    · omega
    · have hbx := (List.pairwise_cons.1 hseparate).1 x hx
      have hb := (hinline b (by simp)).line
      omega

end Shared

section Run
variable {σ : Type} {files : Files σ} {root path place : String} {text : σ → Option Text} {t : Text} {s : σ}
  {again : List Span} {fix : Fix}

/-- A fix that deletes statements of which two share a line is stale when it comes to the first of the two. -/
theorem Listed.apply_of_shared (h : Listed t again) (hinline : ∀ x ∈ again, Inline t x)
    (hshared : ¬ OnSeparateLines t again) (hfix : fix.changes = (deletions t again).reverse.map (toChange path t))
    (hplace : resolve root (Path.normalize path) = .ok place) (hkeeps : files.Keeps place text) (ht : t ≠ [])
    (hlines : newlines t < Json.maxWord) (hs : text s = some t) :
    ∃ shifts s' last, fix.apply files root {} s = (.error (.stale (Path.normalize path)), shifts, s') ∧
      last <:+ again ∧ last ≠ [] ∧ last ≠ again ∧ text s' = some (patch t (deletions t last)) := by
  obtain ⟨earlier, a, b, later, rfl, hseparate, hline⟩ := h.exists_shared hinline hshared
  have hlisted := h.sublist (List.sublist_append_right earlier (a :: b :: later))
  obtain ⟨shifts, s', happly, hs', htracks⟩ := (hlisted.sublist (List.sublist_cons_self ..)).applyChanges hseparate
    hplace hkeeps ht hlines hs
  have hstale :=
    substitute?_of_shared hlisted hseparate (hinline a (by simp)) (hinline b (by simp)) hline hlines htracks
  obtain ⟨s'', hread, hs''⟩ := hkeeps.read hs'
  refine ⟨shifts, s'', b :: later, ?_, ⟨earlier ++ [a], by simp⟩, List.cons_ne_nil _ _, fun heq => ?_, hs''⟩
  · have hsplit : fix.changes = (deletions t (b :: later)).reverse.map (toChange path t) ++
        (toChange path t (deletion t a.start a.stop) :: (deletions t earlier).reverse.map (toChange path t)) := by
      rw [hfix]
      simp [deletions]
    rw [Fix.apply, hsplit, applyChanges_append happly, Autofix.applyChanges, applyChange_of_stale hplace hread hstale]
    rfl
  · have := congrArg List.length heq
    simp only [List.length_append, List.length_cons] at this
    omega

end Run

section Kept
variable {t a b : Text}

lemma trim_eq_self_iff : trim t = t ↔ t.dropWhile isBlank = t ∧ t.rdropWhile isBlank = t := by
  refine ⟨fun h => ?_, fun ⟨hfront, hback⟩ => by rw [trim, trimStart, hfront]; exact hback⟩
  have hprefix : trim t <+: t.dropWhile isBlank := List.rdropWhile_prefix isBlank _
  have hfront : t.dropWhile isBlank = t := by
    refine (List.dropWhile_suffix isBlank).eq_of_length_le ?_
    simpa only [h] using hprefix.length_le
  refine ⟨hfront, ?_⟩
  rw [trim, trimStart, hfront] at h
  exact h

lemma ends_of_trim (h : trim (a ++ b) = a ++ b) :
    (a ≠ [] → isBlankText a = false) ∧ (b ≠ [] → isBlankText b = false) := by
  obtain ⟨hfront, hback⟩ := trim_eq_self_iff.1 h
  constructor
  · intro hne
    obtain ⟨c, rest, rfl⟩ := List.exists_cons_of_ne_nil hne
    have hc : isBlank c = false := by simpa using List.dropWhile_eq_self_iff.1 hfront (by simp)
    simp [isBlankText, hc]
  · intro hne
    obtain ⟨front, c, rfl⟩ := (List.eq_nil_or_concat b).resolve_left hne
    have hc : isBlank c = false := by simpa using List.rdropWhile_eq_self_iff.1 hback (by simp)
    simp [isBlankText, hc]

/-- The deletion of one statement leaves another one alone that has no blanks around it. -/
lemma Listed.spares {imports : List Span} {i j : Span} (h : Listed t imports) (hi : i ∈ imports) (hj : j ∈ imports)
    (hne : i ≠ j) (htrim : trim (textOf t i) = textOf t i) :
    i.stop ≤ (deletion t j.start j.stop).start ∨ (deletion t j.start j.stop).stop ≤ i.start := by
  obtain ⟨hlt, hinside⟩ := h.inside i hi
  have hstart : textOf t i = slice t i.start (i.start + 1) ++ slice t (i.start + 1) i.stop :=
    (slice_append_slice t (Nat.le_succ _) hlt).symm
  have hend : textOf t i = slice t i.start (i.stop - 1) ++ slice t (i.stop - 1) i.stop :=
    (slice_append_slice t (by omega) (Nat.sub_le _ _)).symm
  refine deletion_spares hlt hinside (h.inside j hj).2 ?_ ?_ ?_
  · exact (ends_of_trim (hstart ▸ htrim)).1 (slice_ne_nil t (Nat.lt_succ_self _) (by omega))
  · exact (ends_of_trim (hend ▸ htrim)).2 (slice_ne_nil t (by omega) hinside)
  · have hsymm : Std.Symm fun a b : Span => a.stop ≤ b.start ∨ b.stop ≤ a.start := ⟨fun _ _ => Or.symm⟩
    have hapart : imports.Pairwise fun a b => a.stop ≤ b.start ∨ b.stop ≤ a.start := h.order.imp Or.inl
    exact hapart.forall hi hj hne

end Kept

section Generation
variable {r : FixRequest} {imports : List Span} {fix : Fix}

lemma generate_of_parse {parser : Parser} {language : Language} {parsed : Parsed}
    (hlanguage : r.language = some language)
    (hparsed : parser.parse language r.issue.filePath r.content = .ok parsed) :
    (r.issue.type = unusedImport → generate parser r = .ok (unused? r (parsed.imports.map SyntaxNode.span))) ∧
      (r.issue.type = duplicateImport →
        generate parser r = .ok (duplicates? r (parsed.imports.map SyntaxNode.span))) := by
  have hother : (duplicateImport == unusedImport) = false := by decide
  have hrequest := FixRequest.parse_eq_ok.2 hparsed
  constructor
  · intro htype
    simp only [generate, hlanguage, htype, hrequest, BEq.rfl, if_true]
    rfl
  · intro htype
    simp only [generate, hlanguage, htype, hother, hrequest, Bool.false_eq_true, if_false, BEq.rfl, if_true]
    rfl

lemma duplicates?_eq_none (hline : r.issue.line = none) :
    duplicates? r imports = none ↔ repeated r.content [] imports = [] := by
  simp only [duplicates?, hline, ite_eq_left_iff, List.isEmpty_iff, reduceCtorEq, imp_false, not_not]

lemma changes_of_duplicates (hline : r.issue.line = none) (h : duplicates? r imports = some fix) :
    repeated r.content [] imports ≠ [] ∧
      fix.changes =
        (deletions r.content (repeated r.content [] imports)).reverse.map (toChange r.issue.filePath r.content) := by
  simp only [duplicates?, hline, List.isEmpty_iff] at h
  obtain ⟨hne, h⟩ := Option.ite_none_left_eq_some.1 h
  refine ⟨hne, ?_⟩
  rw [← Option.some.inj h, Fix.changes_create, map_deleteImport, deletions, deletions, List.map_reverse]

end Generation

/-- Imports that repeat earlier ones are deleted, for an issue without a line. An import is repeated just when one
before it has the same words, and without such imports no fix is made. If no two of the repeated imports share a line,
the fix is applied in full: what the deletion of each takes away is cut out of the text, and the imports that are not
repeated are left alone. If two of them do, and each stands on one line, the fix is stale once the last ones have been
deleted, and no others are. The line ends of the text can be counted in a word. -/
theorem duplicates_are_deleted (files : Files σ) (root place : String) (text : σ → Option Text) (s : σ) (r : FixRequest)
    (imports : List Span) (himports : Listed r.content imports) (hline : r.issue.line = none)
    (hplace : resolve root (Path.normalize r.issue.filePath) = .ok place) (hkeeps : files.Keeps place text)
    (hs : text s = some r.content) (hlines : newlines r.content < Json.maxWord) :
    let again := repeated r.content [] imports
    (∀ (parser : Parser) language parsed, r.language = some language → r.issue.type = duplicateImport →
      parser.parse language r.issue.filePath r.content = .ok parsed → parsed.imports.map SyntaxNode.span = imports →
      generate parser r = .ok (duplicates? r imports)) ∧
    (∀ before i after, imports = before ++ i :: after →
      (i ∈ again ↔ ∃ j ∈ before, collapse (textOf r.content j) = collapse (textOf r.content i))) ∧
    (duplicates? r imports = none ↔ again = []) ∧
    ∀ fix, duplicates? r imports = some fix →
      (OnSeparateLines r.content again →
        (∃ shifts s', fix.apply files root {} s = (.ok (), shifts, s') ∧
          text s' = some (patch r.content (deletions r.content again))) ∧
        ∀ i ∈ imports, i ∉ again → trim (textOf r.content i) = textOf r.content i →
          ∀ d ∈ deletions r.content again, i.stop ≤ d.start ∨ d.stop ≤ i.start) ∧
      (¬ OnSeparateLines r.content again → (∀ i ∈ again, Inline r.content i) →
        ∃ shifts s' last, fix.apply files root {} s = (.error (.stale (Path.normalize r.issue.filePath)), shifts, s') ∧
          last <:+ again ∧ last ≠ [] ∧ last ≠ again ∧
          text s' = some (patch r.content (deletions r.content last))) := by
  intro again
  have hsub := repeated_sublist r.content [] imports
  have hagain : Listed r.content again := himports.sublist hsub
  refine ⟨?_, ?_, ?_, fun fix hfix => ?_⟩
  · rintro parser language parsed hlanguage htype hparsed rfl
    exact (generate_of_parse hlanguage hparsed).2 htype
  · rintro before i after rfl
    exact mem_repeated_iff himports.nodup
  · exact duplicates?_eq_none hline
  · obtain ⟨hne, hchanges⟩ := changes_of_duplicates hline hfix
    obtain ⟨first, hfirst⟩ := List.exists_mem_of_ne_nil again hne
    have ht : r.content ≠ [] := by
      have hin := hagain.inside first hfirst
      exact List.ne_nil_of_length_pos (by omega)
    refine ⟨fun hseparate => ⟨?_, ?_⟩, fun hshared hinline => ?_⟩
    · obtain ⟨shifts, s', happly, hs', _⟩ := hagain.applyChanges hseparate hplace hkeeps ht hlines hs
      exact ⟨shifts, s', by rw [Fix.apply, hchanges, happly], hs'⟩
    · rintro i hi hkept htrim d hd
      obtain ⟨j, hj, rfl⟩ := List.mem_map.1 hd
      exact himports.spares hi (hsub.subset hj) (fun heq => hkept (heq ▸ hj)) htrim
    · exact hagain.apply_of_shared hinline hshared hchanges hplace hkeeps ht hlines hs

end Imports

namespace Specimen

/-- The imports fixer is asked about the imports of a script. -/
def askedImports (t : Text) (type : String) (line : Option Nat) (description : String) : FixRequest :=
  ⟨⟨"i", type, .low, "a.py", line, description, true⟩, t, some .python, "TODO: document"⟩

/-- The file that holds a script. -/
def script (t : Text) : Memory := [(Path.components "/ws/a.py", encodeText t)]

/-- A script with an import that stands there twice more. -/
def imported : Text := "import a\nimport  a\n\nimport a\n".toList

/-- The tree of a script, as far as its imports go. -/
def importTree (t : Text) (kind : String) (imports : List Span) : SyntaxNode :=
  treeOf "module" t (imports.map fun s => { kind, start := s.start, stop := s.stop })

lemma imports_importTree (t : Text) {kind : String} (hkind : kind ∈ Grammar.python.importKinds) {imports : List Span}
    (hsorted : imports.Pairwise fun s s' => s.start ≤ s'.start) :
    (Parsed.imports ⟨.python, t, importTree t kind imports⟩).map SyntaxNode.span = imports := by
  let leaf (s : Span) : SyntaxNode := { kind, start := s.start, stop := s.stop }
  have hnodes : (importTree t kind imports).nodes = importTree t kind imports :: imports.map leaf := by
    rw [SyntaxNode.nodes_eq, show (importTree t kind imports).children = imports.map leaf from rfl, List.flatMap_map,
      List.map_eq_flatMap]
    rfl
  have hroot : ¬ Grammar.python.importKinds.contains "module" = true := by decide
  have hfilter : ((importTree t kind imports).nodes.filter fun n =>
      n.isNamed && Grammar.python.importKinds.contains n.kind) = imports.map leaf := by
    rw [hnodes, List.filter_cons_of_neg (by exact hroot), List.filter_eq_self]
    intro n hn
    obtain ⟨s, _, rfl⟩ := List.mem_map.1 hn
    exact List.contains_iff_mem.2 hkind
  have hsort : (imports.map leaf).Pairwise fun a b => decide (a.start ≤ b.start) = true :=
    List.pairwise_map.2 (hsorted.imp decide_eq_true)
  rw [Parsed.imports, hfilter, List.mergeSort_of_pairwise hsort, List.map_map]
  exact List.map_id imports

lemma parse_importTree (t : Text) (kind : String) (imports : List Span) :
    (parserOf t (importTree t kind imports)).parse .python "a.py" t = .ok ⟨.python, t, importTree t kind imports⟩ :=
  parse_parserOf (by decide +kernel) t _

end Specimen

namespace Imports

theorem duplicates_are_deleted_apart :
    let imports : List Span := [⟨0, 8⟩, ⟨9, 18⟩, ⟨20, 28⟩]
    let r := Specimen.askedImports Specimen.imported "duplicate-import" none ""
    let tree := Specimen.importTree r.content "import_statement" imports
    ∃ fix, generate (Specimen.parserOf r.content tree) r = .ok (some fix) ∧ fix.changes.length = 2 ∧
      ∃ shifts m, fix.apply Memory.files "/ws" {} (Specimen.script Specimen.imported) = (.ok (), shifts, m) ∧
        Memory.text? "/ws/a.py" m = some "import a\n\n".toList := by
  intro imports r tree
  obtain ⟨hgenerate, _, hnone, hrun⟩ := duplicates_are_deleted Memory.files "/ws" "/ws/a.py" (Memory.text? "/ws/a.py")
    (Specimen.script Specimen.imported) r imports ⟨by decide +kernel, by decide⟩ rfl (by decide +kernel)
    (Memory.keeps _) (by decide +kernel) (by decide +kernel)
  have hagain : repeated r.content [] imports = [⟨9, 18⟩, ⟨20, 28⟩] := by decide +kernel
  have hcuts : patch r.content (deletions r.content [⟨9, 18⟩, ⟨20, 28⟩]) = "import a\n\n".toList := by decide +kernel
  rw [hagain] at hnone hrun
  obtain ⟨fix, hfix⟩ := Option.ne_none_iff_exists'.1 (mt hnone.1 (List.cons_ne_nil _ _))
  obtain ⟨⟨shifts, m, happly, htext⟩, _⟩ := (hrun fix hfix).1 (by decide +kernel)
  have hchanges := (changes_of_duplicates rfl hfix).2
  rw [hagain] at hchanges
  refine ⟨fix, ?_, by rw [hchanges]; rfl, shifts, m, happly, htext.trans (congrArg some hcuts)⟩
  rw [hgenerate _ _ _ rfl rfl (Specimen.parse_importTree ..)
    (Specimen.imports_importTree r.content (by decide) (by decide)), hfix]

/-- Three equal imports on one line: the last one is deleted, and then the one before it is stale. -/
theorem shared_line_makes_duplicates_stale :
    let t := "import a; import a; import a\n".toList
    let r := Specimen.askedImports t "duplicate-import" none ""
    let tree := Specimen.importTree t "import_statement" [⟨0, 8⟩, ⟨10, 18⟩, ⟨20, 28⟩]
    let fixes := Specimen.made (fixer (Specimen.parserOf t tree)) r
    let run := applyEach Memory.files "/ws" fixes {} (Specimen.script t)
    fixes.map (fun fix => fix.changes.length) = [2] ∧
      run.1.map Attempt.outcome = [.error (.stale "a.py")] ∧
      Memory.text? "/ws/a.py" run.2 = some "import a; import a; \n".toList := by
  intro t r tree fixes run
  have hgenerate := (generate_of_parse (r := r) rfl
    (Specimen.parse_importTree t "import_statement" [⟨0, 8⟩, ⟨10, 18⟩, ⟨20, 28⟩])).2 rfl
  rw [Specimen.imports_importTree t (by decide) (by decide)] at hgenerate
  have hfixes : fixes = (duplicates? r [⟨0, 8⟩, ⟨10, 18⟩, ⟨20, 28⟩]).toList := by
    simp only [fixes, Specimen.made]
    rw [show (fixer (Specimen.parserOf t tree)).generate r = _ from hgenerate]
  simp only [run, hfixes]
  decide +kernel

end Imports
end Autofix
