import Autofix.Proofs.Apply.Descent

/-! A fix applied a second time. It is stale if its first edit takes away what the line of the edit was found
by, as edits inside a line do; a fix that appends a line end finds its text again. -/
namespace Autofix
open Text Edit

section Above
variable {front t : Text} {edits : List Edit} {e : Edit}

lemma applyAll_cons (e : Edit) (edits : List Edit) (t : Text) :
    applyAll (e :: edits) t = applyAll edits (e.apply t) := rfl

/-- Edits without growth that are made above some lines leave those lines and their numbers alone. -/
lemma applyAll_append (back : Text) (hfront : EndsLine front)
    (hfits : ∀ f ∈ edits, f.start ≤ f.stop ∧ f.stop < front.length)
    (hflat : ∀ f ∈ edits, newlines f.replacement = newlines (slice front f.start f.stop))
    (horder : edits.Pairwise fun e f => f.stop ≤ e.start) :
    ∃ front', applyAll edits (front ++ back) = front' ++ back ∧ EndsLine front' ∧ newlines front' = newlines front := by
  induction edits generalizing front with
  | nil => exact ⟨front, rfl, hfront, rfl⟩
  | cons f rest ih =>
    obtain ⟨hle, hlt⟩ := hfits f List.mem_cons_self
    have hf : f.Fits front := ⟨hle, hlt.le⟩
    rw [List.pairwise_cons] at horder
    have happly : f.apply (front ++ back) = f.apply front ++ back := by
      rw [apply, apply, splice, splice, List.take_append_of_le_length (hle.trans hlt.le),
        List.drop_append_of_le_length hlt.le, ← List.append_assoc]
    have hends : EndsLine (f.apply front) := by
      have hne : front.drop f.stop ≠ [] := by simpa using hlt
      rw [← List.take_append_drop f.stop front] at hfront
      exact hfront.of_append.append fun hnil => absurd hnil hne
    have hcount : newlines (f.apply front) = newlines front := by
      have hold : newlines front = newlines (front.take f.start) + newlines (slice front f.start f.stop) +
          newlines (front.drop f.stop) := by
        rw [← newlines_append, ← newlines_append, take_append_slice front hle, List.take_append_drop]
      rw [apply, splice, newlines_append, newlines_append, hold, hflat f List.mem_cons_self]
    have hlen : (f.apply front).length = f.start + f.replacement.length + (front.length - f.stop) := by
      rw [apply, splice, List.length_append, List.length_append, List.length_take_of_le (hle.trans hlt.le),
        List.length_drop]
    obtain ⟨front', hfinal, hlines, hsame⟩ := ih hends
      (fun g hg => ⟨(hfits g (List.mem_cons_of_mem _ hg)).1, by have := horder.1 g hg; omega⟩)
      (fun g hg => by
        rw [hflat g (List.mem_cons_of_mem _ hg), ← slice_take (f.apply front) (horder.1 g hg),
          take_apply_of_le hf (Nat.le_refl _), slice_take front (horder.1 g hg)])
      horder.2
    exact ⟨front', by rw [applyAll_cons, happly, hfinal], hlines, hsame.trans hcount⟩

/-- After an edit and edits inside lines above it, the line on which the edit starts is where the edit has left
it. -/
lemma exists_lineAt_applyAll (he : e.Fits t) (hin : ∀ f ∈ edits, f.InLine t)
    (horder : (e :: edits).Pairwise fun e f => lineEnd t f.start < lineStart t e.start) :
    ∃ q ≤ (applyAll (e :: edits) t).length, lineOf (applyAll (e :: edits) t) q = lineOf t e.start ∧
      lineAt (applyAll (e :: edits) t) q = lineAt (e.apply t) e.start := by
  have hle := lineStart_le t e.start
  have hp := he.le.trans he.inside
  rw [List.pairwise_cons] at horder
  have hlen : (t.take (lineStart t e.start)).length = lineStart t e.start := List.length_take_of_le (hle.trans hp)
  have hsplit : e.apply t = t.take (lineStart t e.start) ++ (e.apply t).drop (lineStart t e.start) := by
    rw [← take_apply_of_le he hle, List.take_append_drop]
  obtain ⟨front, hfinal, hends, hcount⟩ := applyAll_append ((e.apply t).drop (lineStart t e.start))
    (endsLine_take_lineStart t e.start)
    (fun f hf => ⟨(hin f hf).lt.le, by have := horder.1 f hf; have := (hin f hf).inLine; omega⟩)
    (fun f hf => by
      have := horder.1 f hf
      have := (hin f hf).inLine
      rw [slice_take t (by omega), (hin f hf).newlines_slice, (hin f hf).flat])
    (horder.2.imp_of_mem fun {f g} _ hg hlt => by
      have := (hin g hg).inLine
      have := lineStart_le t f.start
      omega)
  have hk : e.start - lineStart t e.start ≤ ((e.apply t).drop (lineStart t e.start)).length := by
    rw [List.length_drop, apply, splice, List.length_append, List.length_append, List.length_take_of_le hp]
    omega
  have hcut : ((e.apply t).drop (lineStart t e.start)).take (e.start - lineStart t e.start) =
      slice t (lineStart t e.start) e.start := by
    rw [← List.drop_take, take_apply_of_le he (Nat.le_refl _)]
    rfl
  rw [applyAll_cons, hsplit, hfinal]
  refine ⟨front.length + (e.start - lineStart t e.start), by simp only [List.length_append]; omega, ?_, ?_⟩
  · rw [lineOf, List.take_length_add_append, hcut, newlines_append, hcount, ← newlines_append, take_append_slice t hle]
    rfl
  · have hold := lineAt_append_right (a := t.take (lineStart t e.start)) (endsLine_take_lineStart t e.start) hk
    rw [← hsplit, hlen, Nat.add_sub_of_le hle] at hold
    rw [lineAt_append_right hends hk, ← hsplit, hold]

end Above

/-- The fix is applied, and a second time it is stale and leaves the file, with the shifts that it has left as
well as with none. -/
def Fix.AppliesOnce (files : Files σ) (root path : String) (text : σ → Option Text) (f : Fix) (s : σ) : Prop :=
  ∃ shifts s', f.apply files root {} s = (.ok (), shifts, s') ∧
    ∀ again, again = shifts ∨ again = {} →
      ∃ s'', f.apply files root again s' = (.error (.stale (Path.normalize path)), again, s'') ∧ text s'' = text s'

section Again
variable {σ : Type} {files : Files σ} {root path place : String} {text : σ → Option Text} {t : Text} {s : σ} {f : Fix}
  {e : Edit} {above : List Edit}

lemma lineOf_le_lastLine_self (t : Text) (a : Edit) : lineOf t a.start ≤ a.lastLine t :=
  lineOf_le t (Nat.le_add_right _ _)

lemma descending_of_inLine (he : e.Fits t) (hin : ∀ f ∈ above, f.InLine t)
    (horder : (e :: above).Pairwise fun e f => lineEnd t f.start < lineStart t e.start) : Descending t (e :: above) where
  fits := List.forall_mem_cons.2 ⟨he, fun f hf => (hin f hf).fits⟩
  order := by
    rw [List.pairwise_cons] at horder ⊢
    refine ⟨fun f hf => ?_, horder.2.imp_of_mem fun {g f} _ hf hlt => ?_⟩
    · have := horder.1 f hf
      have := lineStart_le t e.start
      rw [(hin f hf).anchored_stop]
      omega
    · have := lineStart_le t g.start
      rw [(hin f hf).anchored_stop]
      omega

/-- A fix is applied once if its first edit takes away what its line was found by and the others are made inside
lines above. Its own growth is counted below its anchor only, and the edits above it have none. -/
theorem appliesOnce_of_loses (hplace : resolve root (Path.normalize path) = .ok place) (hkeeps : files.Keeps place text)
    (hlines : newlines t < Json.maxWord) (hs : text s = some t)
    (hf : f.changes = (e :: above).map (toChange path t)) (he : e.Fits t) (hloses : e.Loses t)
    (hin : ∀ f ∈ above, f.InLine t)
    (horder : (e :: above).Pairwise fun e f => lineEnd t f.start < lineStart t e.start) :
    f.AppliesOnce files root path text s := by
  have ht : t ≠ [] := by
    rintro rfl
    exact hloses (by simp [lineAt, slice])
  obtain ⟨shifts, s', happly, hs', htracks⟩ := applyChanges_descending hplace hkeeps ht hlines
    (descending_of_inLine he hin horder) hs (fun _ _ => rfl) LineShifts.tracks_nil
    (fun _ _ _ ha => (List.not_mem_nil ha).elim)
  refine ⟨shifts, s', by rw [Fix.apply, hf, happly], fun again hagain => ?_⟩
  have hexpected : again.expectedLine? (e.toChange path t) = some (lineOf t (e.anchored t).start) := by
    rcases hagain with rfl | rfl
    · refine htracks.expectedLine?_of_above hlines fun a ha hlt => ?_
      rw [List.append_nil, List.mem_reverse, List.map_cons, List.mem_cons] at ha
      rcases ha with rfl | ha
      · have := lineOf_le_lastLine_self t (e.anchored t)
        omega
      · obtain ⟨f, hf, rfl⟩ := List.mem_map.1 ha
        rw [growth_anchored (hin f hf).fits, (hin f hf).growth]
    · exact LineShifts.tracks_nil.expectedLine?_of_above hlines fun a ha => (List.not_mem_nil ha).elim
  obtain ⟨q, hq, hline, hlineAt⟩ := exists_lineAt_applyAll he hin horder
  have hstale : (e.toChange path t).substitute? (again.expectedLine? (e.toChange path t)) (applyAll (e :: above) t) =
      none := by
    rw [hexpected]
    refine substitute?_of_lost path ht he hq (by omega) ?_
    rw [hlineAt]
    exact hloses
  obtain ⟨s'', hagain, hs''⟩ := apply_of_stale hplace hkeeps (hf.trans (List.map_cons ..)) hs' hstale
  exact ⟨s'', hagain, hs''.trans hs'.symm⟩

lemma appliesOnce_of_rewritesLines {edits : List Edit} (hplace : resolve root (Path.normalize path) = .ok place)
    (hkeeps : files.Keeps place text) (hlines : newlines t < Json.maxWord) (hs : text s = some t) (hne : edits ≠ [])
    (hf : f.changes = edits.map (toChange path t)) (hedits : RewritesLines t edits) :
    f.AppliesOnce files root path text s := by
  obtain ⟨e, above, rfl⟩ := List.exists_cons_of_ne_nil hne
  have hin := List.forall_mem_cons.1 hedits.inLine
  exact appliesOnce_of_loses hplace hkeeps hlines hs hf hin.1.fits (hedits.loses e List.mem_cons_self) hin.2 hedits.order

/-- A fix that appends a line end finds its anchor again, and appends another one. -/
theorem apply_twice_of_append (hplace : resolve root (Path.normalize path) = .ok place) (hkeeps : files.Keeps place text)
    (ht : t ≠ []) (hlines : newlines t < Json.maxWord) (hs : text s = some t)
    (hf : f.changes = [toChange path t ⟨t.length, t.length, ['\n']⟩]) :
    ∃ shifts s', f.apply files root {} s = (.ok (), shifts, s') ∧
      ∀ again, again = shifts ∨ again = {} →
        ∃ shifts' s'', f.apply files root again s' = (.ok (), shifts', s'') ∧ text s'' = some (t ++ ['\n', '\n']) := by
  let e : Edit := ⟨t.length, t.length, ['\n']⟩
  have he : e.Fits t := ⟨Nat.le_refl _, Nat.le_refl _⟩
  have happend : e.apply t = t ++ ['\n'] := by simp [e, apply, splice]
  have hstart := expectedLine?_nil path e hlines
  obtain ⟨s', happly, hs'⟩ := apply_of_substitute? hplace hkeeps hf hs (substitute?_toChange path he (.inl hstart))
  refine ⟨_, s', happly, fun again hagain => ?_⟩
  have hexpected : again.expectedLine? (e.toChange path t) = some (lineOf t (e.anchored t).start) := by
    rcases hagain with rfl | rfl
    · have hself := lineOf_le_lastLine_self t (e.anchored t)
      have hline := lineOf_le_succ_newlines t (e.anchored t).start
      rw [expectedLine?_record ht he, if_neg (by omega)]
      exact congrArg some (LineShifts.moveLine_eq (Int.add_zero _) (hline.trans hlines))
    · exact hstart
  have hsubst := substitute?_of_take_eq path ht he (take_apply_of_le he (anchored_bounds he).2.2)
  rw [← hexpected] at hsubst
  obtain ⟨s'', hagain, hs''⟩ := apply_of_substitute? hplace hkeeps hf hs' hsubst
  refine ⟨_, s'', hagain, hs''.trans ?_⟩
  rw [happend]
  simp [e, apply, splice]

end Again

/-- A fix of a fixer that comes with the program, with any sound parser, applied and then applied again, with the
shifts that it has left or with none. A fix that rewrites keywords, ends of lines or indentations is applied once:
the second time it is stale and leaves the file. So is every fix with one change that takes away from the line on
which its edit starts what the line was found by. A fix that appends the missing line end is applied again, and
appends another one. The line ends of the text can be counted in a word. -/
theorem apply_again (parser : Parser) (hparser : parser.IsSound) (files : Files σ) (root place : String)
    (text : σ → Option Text) (s : σ) (fixer : Fixer) (r : FixRequest) (f : Fix)
    (hfixer : fixer ∈ Registry.builtin parser) (hf : fixer.generate r = .ok (some f))
    (hplace : resolve root (Path.normalize r.issue.filePath) = .ok place) (hkeeps : files.Keeps place text)
    (hs : text s = some r.content) (hlines : newlines r.content < Json.maxWord) :
    (fixer.name = Refactoring.name ∨ fixer.name = Formatting.name ∧ r.issue.type ≠ Formatting.missingFinalNewline →
        f.AppliesOnce files root r.issue.filePath text s) ∧
      (f.changes.length = 1 → (∃ e, f.MakesEdits r [e] ∧ e.Fits r.content) ∧
        ∀ e, f.MakesEdits r [e] → e.Fits r.content → e.Loses r.content →
          f.AppliesOnce files root r.issue.filePath text s) ∧
      (fixer.name = Formatting.name ∧ r.issue.type = Formatting.missingFinalNewline →
        ∃ shifts s', f.apply files root {} s = (.ok (), shifts, s') ∧
          ∀ again, again = shifts ∨ again = {} →
            ∃ shifts' s'', f.apply files root again s' = (.ok (), shifts', s'') ∧
              text s'' = some (r.content ++ ['\n', '\n'])) := by
  refine ⟨?_, fun hone => ⟨Registry.builtin_change hparser hfixer hf hone, fun e he hfits hloses => ?_⟩, ?_⟩
  · rintro (hname | ⟨hname, htype⟩)
    · obtain rfl := Registry.eq_of_name hfixer (Registry.refactoring_mem_builtin parser) hname
      obtain ⟨e, he, hin, hloses⟩ := Refactoring.changes_of_generate hparser hf
      exact appliesOnce_of_rewritesLines hplace hkeeps hlines hs (List.cons_ne_nil _ _) he (.singleton hin hloses)
    · obtain rfl := Registry.eq_of_name hfixer (Registry.formatting_mem_builtin parser) hname
      obtain ⟨edits, hne, hedits, hlost⟩ := Formatting.changes_of_generate (Except.ok.inj hf) htype
      exact appliesOnce_of_rewritesLines hplace hkeeps hlines hs hne hedits hlost
  · exact appliesOnce_of_loses hplace hkeeps hlines hs he hfits hloses (fun _ h => (List.not_mem_nil h).elim)
      (List.pairwise_singleton _ _)
  · rintro ⟨hname, htype⟩
    obtain rfl := Registry.eq_of_name hfixer (Registry.formatting_mem_builtin parser) hname
    obtain ⟨hne, hedit⟩ := Formatting.changes_of_missingFinalNewline (Except.ok.inj hf) htype
    exact apply_twice_of_append hplace hkeeps hne hlines hs hedit

namespace Specimen

def askedAll (t : Text) (type : String) : FixRequest :=
  ⟨⟨"i", type, .low, "a.txt", none, "", true⟩, t, none, "TODO: document"⟩

def holding (t : Text) : Memory := [(Path.components "/ws/a.txt", encodeText t)]

def blanks : Text := "a  \nb\t\n".toList

end Specimen

theorem apply_again_blanks :
    ∃ f ∈ Specimen.made Formatting.fixer (Specimen.askedAll Specimen.blanks "trailing-whitespace"),
      f.changes.length = 2 ∧
        f.AppliesOnce Memory.files "/ws" "a.txt" (Memory.text? "/ws/a.txt") (Specimen.holding Specimen.blanks) := by
  have hmade : (Specimen.made Formatting.fixer (Specimen.askedAll Specimen.blanks "trailing-whitespace")).map
      (fun f => f.changes.length) = [2] := by decide +kernel
  obtain ⟨f, hf, hchanges⟩ := List.map_eq_singleton_iff.1 hmade
  have hmem : f ∈ Specimen.made Formatting.fixer (Specimen.askedAll Specimen.blanks "trailing-whitespace") := by
    rw [hf]
    exact List.mem_cons_self
  refine ⟨f, hmem, hchanges, ?_⟩
  exact (apply_again Specimen.remarkParser Specimen.isSound_remarkParser Memory.files "/ws" "/ws/a.txt"
    (Memory.text? "/ws/a.txt") (Specimen.holding Specimen.blanks) Formatting.fixer _ f
    (Registry.formatting_mem_builtin _) (Specimen.mem_made hmem) (by decide +kernel) (Memory.keeps _)
    (by decide +kernel) (by decide +kernel)).1 (.inr ⟨rfl, by decide⟩)

/-- The fix for a missing line end, applied twice: in one batch, and in two. -/
theorem missing_line_end_is_appended_twice :
    let fixes := Specimen.made Formatting.fixer (Specimen.askedAll ['x'] "missing-final-newline")
    let once := applyEach Memory.files "/ws" fixes {} (Specimen.holding ['x'])
    let later := applyEach Memory.files "/ws" fixes {} once.2
    let twice := applyEach Memory.files "/ws" (fixes ++ fixes) {} (Specimen.holding ['x'])
    once.1.map Attempt.outcome = [.ok ()] ∧
      later.1.map Attempt.outcome = [.ok ()] ∧ Memory.text? "/ws/a.txt" later.2 = some "x\n\n".toList ∧
      twice.1.map Attempt.outcome = [.ok (), .ok ()] ∧ Memory.text? "/ws/a.txt" twice.2 = some "x\n\n".toList := by
  decide +kernel

end Autofix
