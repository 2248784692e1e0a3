import Autofix.Proofs.Apply.Again

/-! Formatting of a whole text. The edits of its lines, applied as one fix from the last line up, come to a function
of lines that is applied to each line; what the fixer would still change afterwards is read off that function. -/
namespace Autofix
open Text Edit

namespace Text

/-- The text with each of its lines replaced by what a function makes of it. -/
def mapLines (f : Text → Text) (t : Text) : Text := join ['\n'] ((lines t).map f)

variable {f : Text → Text}

lemma lines_mapLines (hf : ∀ l, newlines l = 0 → newlines (f l) = 0) (t : Text) :
    lines (mapLines f t) = (lines t).map f := by
  refine lines_join ?_ fun l hl => ?_
  · exact mt List.map_eq_nil_iff.1 (splitAt_ne_nil isNewline t)
  · obtain ⟨k, hk, rfl⟩ := List.mem_map.1 hl
    exact hf k ((lines_spec t).2 k hk)

end Text

namespace Formatting

section Lines
variable {t front line back : Text} {ls : List Text} {edits : List Edit} {edit? : Text → Nat → Option Edit}
  {f : Text → Text}

/-- What the edit of a line makes of it is what the function makes of it. -/
structure MapsLines (edit? : Text → Nat → Option Edit) (f : Text → Text) : Prop where
  editsLines : EditsLines edit?
  unchanged : ∀ {line start}, edit? line start = none → f line = line
  changed : ∀ {line start i j r}, edit? line start = some ⟨start + i, start + j, r⟩ →
    f line = line.take i ++ r ++ line.drop j

lemma MapsLines.flat (h : MapsLines edit? f) (hline : newlines line = 0) : newlines (f line) = 0 := by
  cases he : edit? line 0 with
  | none => rw [h.unchanged he, hline]
  | some e =>
    obtain ⟨i, j, r, rfl, _, _, hr, _⟩ := h.editsLines line 0 e hline he
    rw [h.changed he]
    exact newlines_replaced hline hr i j

lemma MapsLines.eq_none_iff (h : MapsLines edit? f) (hline : newlines line = 0) (start : Nat) :
    edit? line start = none ↔ f line = line := by
  refine ⟨h.unchanged, fun hsame => ?_⟩
  cases he : edit? line start with
  | none => rfl
  | some e =>
    obtain ⟨i, j, r, rfl, _, _, _, hlost⟩ := h.editsLines line start e hline he
    rw [← h.changed he, hsame] at hlost
    exact absurd List.infix_rfl hlost

lemma MapsLines.editsFrom_eq_nil (h : MapsLines edit? f) (hflat : ∀ l ∈ ls, newlines l = 0) (start : Nat) :
    editsFrom edit? start ls = [] ↔ ∀ l ∈ ls, f l = l := by
  induction ls generalizing start with
  | nil => simp [editsFrom]
  | cons line rest ih =>
    rw [List.forall_mem_cons] at hflat ⊢
    rw [editsFrom, List.append_eq_nil_iff, ih hflat.2, Option.toList_eq_nil_iff, h.eq_none_iff hflat.1]

lemma EditsLines.between (h : EditsLines edit?) (hfront : EndsLine front) (hflat : ∀ l ∈ ls, newlines l = 0)
    (ht : t = front ++ join ['\n'] ls) :
    Between front.length (Formatting.editsFrom edit? front.length ls) t.length := by
  obtain ⟨hin, horder⟩ := h.editsFrom hfront hflat ht
  have hlen : front.length ≤ t.length := by
    rw [ht, List.length_append]
    exact Nat.le_add_right _ _
  refine between_of_pairwise hlen ?_ fun e he => ?_
  · refine horder.imp_of_mem fun {a b} ha _ hlt => ?_
    have := (hin a ha).1.1.inLine
    have := lineStart_le t b.start
    omega
  · have := lineStart_le t e.start
    exact ⟨(hin e he).2.trans this, (hin e he).1.1.lt, (hin e he).1.1.inside⟩

/-- The edit of a line, before edits further down, replaces the line by what the function makes of it. -/
lemma MapsLines.weave_line (h : MapsLines edit? f) (hline : newlines line = 0) (ht : t = front ++ line ++ back)
    (hedits : Between (front.length + line.length) edits t.length) :
    weave t front.length ((edit? line front.length).toList ++ edits) =
      f line ++ weave t (front.length + line.length) edits := by
  have hslice : ∀ {i k}, k ≤ line.length → slice t (front.length + i) (front.length + k) = (line.take k).drop i :=
    fun hk => ht ▸ slice_append_line front line back hk
  cases he : edit? line front.length with
  | none =>
    have hwhole := hslice (i := 0) (Nat.le_refl _)
    rw [Nat.add_zero, List.drop_zero, List.take_length] at hwhole
    rw [h.unchanged he, Option.toList_none, List.nil_append, weave_eq_slice_append hedits (Nat.le_add_right _ _),
      hwhole]
  | some e =>
    obtain ⟨i, j, r, rfl, hij, hj, _, _⟩ := h.editsLines line front.length e hline he
    have hbefore := hslice (i := 0) (k := i) (by omega)
    have hafter := hslice (i := j) (Nat.le_refl _)
    rw [Nat.add_zero, List.drop_zero] at hbefore
    rw [List.take_length] at hafter
    rw [h.changed he, Option.toList_some, List.singleton_append, weave, hbefore,
      weave_eq_slice_append hedits (show front.length + j ≤ _ by omega), hafter]
    simp only [List.append_assoc]

/-- The edits of some lines that end a text replace each line by what the function makes of it. Of what stands
before the lines still to come it only matters that it ends with a line end. -/
lemma MapsLines.weave_editsFrom (h : MapsLines edit? f) (hne : ls ≠ []) (hfront : EndsLine front)
    (hflat : ∀ l ∈ ls, newlines l = 0) (ht : t = front ++ join ['\n'] ls) :
    weave t front.length (editsFrom edit? front.length ls) = join ['\n'] (ls.map f) := by
  induction ls generalizing front with
  | nil => exact absurd rfl hne
  | cons line rest ih =>
    rw [List.forall_mem_cons] at hflat
    by_cases hrest : rest = []
    · subst hrest
      have hend : t = front ++ line ++ [] := by rw [ht, join, List.append_nil]
      have hlen : t.length = front.length + line.length := by rw [ht, join, List.length_append]
      have hlast : weave t front.length ((edit? line front.length).toList ++ []) = _ :=
        h.weave_line hflat.1 hend (Nat.le_of_eq hlen.symm)
      rw [editsFrom, editsFrom, hlast, weave, ← hlen, List.drop_length, List.append_nil]
      rfl
    · have hsplit : t = (front ++ line ++ ['\n']) ++ join ['\n'] rest := by
        rw [ht, join_cons hrest]
        simp only [List.append_assoc]
      have hlen : (front ++ line ++ ['\n']).length = front.length + line.length + 1 := by simp; omega
      have hnext : EndsLine (front ++ line ++ ['\n']) := .inr (by simp)
      have hbelow := h.editsLines.between hnext hflat.2 hsplit
      have hmore := ih hrest hnext hflat.2 hsplit
      rw [hlen] at hbelow hmore
      have hnewline : slice t (front.length + line.length) (front.length + line.length + 1) = ['\n'] := by
        have hcut := slice_append_line (front ++ line) ['\n'] (join ['\n'] rest) (i := 0) (k := 1) (by simp)
        rwa [← hsplit, List.length_append] at hcut
      have hline := h.weave_line hflat.1 (by rw [hsplit, List.append_assoc]) (hbelow.mono (Nat.le_add_right _ 1))
      rw [editsFrom, hline, weave_eq_slice_append hbelow (Nat.le_add_right _ 1), hnewline, hmore, List.map_cons,
        join_cons (mt List.map_eq_nil_iff.1 hrest), List.append_assoc]

/-- The edits of all lines of a text, made from the last line up, map every line. -/
theorem MapsLines.applyAll_lineEdits (h : MapsLines edit? f) (t : Text) :
    applyAll (lineEdits t none edit?) t = mapLines f t := by
  obtain ⟨hjoin, hflat⟩ := lines_spec t
  have hstart : EndsLine [] := .inl rfl
  have hbetween : Between 0 (editsFrom edit? 0 (lines t)) t.length := h.editsLines.between hstart hflat hjoin.symm
  rw [lineEdits, applyAll_reverse hbetween]
  exact h.weave_editsFrom (splitAt_ne_nil isNewline t) hstart hflat hjoin.symm

end Lines

section Padding
variable {line kept body : Text}

/-- A space or a tab, as it is removed at the end of a line. -/
def isPadding (c : Char) : Bool := c == ' ' || c == '\t'

/-- A line without the spaces and tabs at its end, or before the carriage return at its end. -/
def strip (line : Text) : Text :=
  if line.getLast? = some '\r' then line.dropLast.rdropWhile isPadding ++ ['\r'] else line.rdropWhile isPadding

lemma strip_concat_return (body : Text) : strip (body ++ ['\r']) = body.rdropWhile isPadding ++ ['\r'] := by
  simp [strip]

lemma strip_of_last (h : line.getLast? ≠ some '\r') : strip line = line.rdropWhile isPadding := if_neg h

lemma lineBody_concat_return (body : Text) : lineBody (body ++ ['\r']) = body := by
  simp [lineBody]

lemma lineBody_of_last (h : line.getLast? ≠ some '\r') : lineBody line = line := if_neg h

lemma eq_concat_return_or (line : Text) : (∃ body, line = body ++ ['\r']) ∨ line.getLast? ≠ some '\r' := by
  by_cases h : line.getLast? = some '\r'
  · exact .inl (List.getLast?_eq_some_iff.1 h)
  · exact .inr h

lemma strip_eq (line : Text) :
    strip line = (lineBody line).rdropWhile isPadding ++ line.drop (lineBody line).length := by
  rcases eq_concat_return_or line with ⟨body, rfl⟩ | h
  · rw [strip_concat_return, lineBody_concat_return, List.drop_left]
  · rw [strip_of_last h, lineBody_of_last h, List.drop_length, List.append_nil]

lemma trimLine?_mapsLines : MapsLines trimLine? strip where
  editsLines := trimLine?_editsLines
  unchanged {line start} h := by
    have hpre := List.rdropWhile_prefix isPadding (l := lineBody line)
    simp only [trimLine?, ite_eq_right_iff, reduceCtorEq, imp_false, Nat.not_lt] at h
    rw [strip_eq, hpre.eq_of_length_le h]
    exact List.prefix_iff_eq_append.1 (prefix_lineBody line)
  changed {line start i j r} h := by
    have hpre := (List.rdropWhile_prefix isPadding (l := lineBody line)).trans (prefix_lineBody line)
    simp only [trimLine?, Option.ite_none_right_eq_some, Option.some.injEq, Edit.mk.injEq] at h
    obtain ⟨_, hi, hj, rfl⟩ := h
    obtain rfl := Nat.add_left_cancel hi
    obtain rfl := Nat.add_left_cancel hj
    rw [strip_eq, List.append_nil]
    exact congrArg (· ++ _) (List.prefix_iff_eq_take.1 hpre)

/-- What is stripped from the line leaves it with a carriage return at its end that stands behind a space or tab. -/
def BaresReturn (line : Text) : Prop :=
  ∃ kept c padding, line = kept ++ [c, '\r'] ++ padding ∧ isPadding c = true ∧ padding ≠ [] ∧
    ∀ d ∈ padding, isPadding d = true

lemma rdropWhile_append_padding {padding : Text} (h : ∀ d ∈ padding, isPadding d = true) (kept : Text) :
    (kept ++ padding).rdropWhile isPadding = kept.rdropWhile isPadding := by
  rw [List.rdropWhile, List.reverse_append, List.dropWhile_append_of_pos fun d hd => h d (List.mem_reverse.1 hd)]
  rfl

lemma baresReturn_iff (line : Text) :
    BaresReturn line ↔ line.getLast? ≠ some '\r' ∧
      ∃ kept c, line.rdropWhile isPadding = kept ++ [c] ++ ['\r'] ∧ isPadding c = true := by
  constructor
  · rintro ⟨kept, c, padding, rfl, hc, hne, hpadding⟩
    refine ⟨fun hend => ?_, kept, c, ?_, hc⟩
    · rw [List.getLast?_append_of_ne_nil _ hne] at hend
      exact absurd (hpadding _ (List.mem_of_getLast? hend)) (by decide)
    · rw [rdropWhile_append_padding hpadding, List.append_cons, List.rdropWhile_concat_neg _ _ _ (by decide)]
  · rintro ⟨hlast, kept, c, hkept, hc⟩
    have hsplit : line.rdropWhile isPadding ++ line.rtakeWhile isPadding = line := List.rdropWhile_append_rtakeWhile
    rw [hkept] at hsplit
    refine ⟨kept, c, line.rtakeWhile isPadding, by simpa using hsplit.symm, hc, fun hnil => hlast ?_,
      fun d hd => List.mem_rtakeWhile_imp hd⟩
    rw [← hsplit, hnil, List.append_nil, List.getLast?_concat]

/-- Stripping a line again changes it just when the first time has bared a carriage return. Only then the
stripped line can end with a carriage return that was not at the end before. -/
theorem strip_strip_iff (line : Text) : strip (strip line) = strip line ↔ ¬ BaresReturn line := by
  rcases eq_concat_return_or line with ⟨body, rfl⟩ | hlast
  · rw [strip_concat_return, strip_concat_return, List.rdropWhile_idempotent]
    exact iff_of_true rfl fun hbares => ((baresReturn_iff _).1 hbares).1 List.getLast?_concat
  rw [strip_of_last hlast]
  rcases eq_concat_return_or (line.rdropWhile isPadding) with ⟨body, hbody⟩ | hkept
  · rw [hbody, strip_concat_return, List.append_left_inj, List.rdropWhile_eq_self_iff]
    constructor
    · rintro hclean hbares
      obtain ⟨_, kept, c, hkept, hc⟩ := (baresReturn_iff _).1 hbares
      obtain rfl : body = kept ++ [c] := List.append_cancel_right (hbody.symm.trans hkept)
      exact hclean (by simp) (by simpa using hc)
    · intro hbares hne hc
      refine hbares ((baresReturn_iff _).2 ⟨hlast, body.dropLast, body.getLast hne, ?_, hc⟩)
      rw [hbody, List.dropLast_append_getLast]
  · rw [strip_of_last hkept, List.rdropWhile_idempotent]
    refine iff_of_true rfl fun hbares => hkept ?_
    obtain ⟨_, kept, c, hreturn, _⟩ := (baresReturn_iff _).1 hbares
    rw [hreturn, List.getLast?_concat]

end Padding

section Indentation

/-- A line with four spaces for each tab among the blanks that it starts with. -/
def untab (line : Text) : Text :=
  (line.takeWhile isBlank).flatMap (fun c => if c = '\t' then List.replicate 4 ' ' else [c]) ++ line.dropWhile isBlank

lemma untab_eq (line : Text) : untab line = expandTabs (indentation line) ++ line.dropWhile isBlank := by
  have hsame : (fun c => if c = '\t' then List.replicate 4 ' ' else [c]) =
      fun c : Char => if c == '\t' then [' ', ' ', ' ', ' '] else [c] := by
    funext c
    simp [List.replicate]
  rw [untab, hsame]
  rfl

lemma expandTabs_of_not_mem {t : Text} (h : '\t' ∉ t) : expandTabs t = t := by
  induction t with
  | nil => rfl
  | cons c t ih =>
    rw [List.mem_cons, not_or] at h
    have hc : (c == '\t') = false := by simpa using Ne.symm h.1
    rw [expandTabs, List.flatMap_cons, hc]
    exact congrArg (c :: ·) (ih h.2)

lemma expandLine?_mapsLines : MapsLines expandLine? untab where
  editsLines := expandLine?_editsLines
  unchanged {line start} h := by
    have htab : '\t' ∉ indentation line := by simpa [expandLine?] using h
    rw [untab_eq, expandTabs_of_not_mem htab]
    exact List.takeWhile_append_dropWhile
  changed {line start i j r} h := by
    simp only [expandLine?, Option.ite_none_right_eq_some, Option.some.injEq, Edit.mk.injEq] at h
    obtain ⟨_, hi, hj, rfl⟩ := h
    obtain rfl : i = 0 := by omega
    obtain rfl := Nat.add_left_cancel hj
    have hdrop : line.drop (indentation line).length = line.dropWhile isBlank := by
      have hsplit : indentation line ++ line.dropWhile isBlank = line := List.takeWhile_append_dropWhile
      exact (congrArg (List.drop _) hsplit.symm).trans List.drop_left
    rw [untab_eq, List.take_zero, List.nil_append, hdrop]

lemma indentation_untab (line : Text) : indentation (untab line) = expandTabs (indentation line) := by
  have hblank := isBlank_of_mem_expandTabs fun c (hc : c ∈ indentation line) => List.mem_takeWhile_imp hc
  have hrest : (line.dropWhile isBlank).takeWhile isBlank = [] := by
    have hhead := List.head?_dropWhile_not isBlank line
    cases hdrop : line.dropWhile isBlank with
    | nil => rfl
    | cons c rest =>
      rw [hdrop] at hhead
      exact List.takeWhile_cons_of_neg (by simpa using hhead)
  rw [untab_eq, indentation, List.takeWhile_append_of_pos hblank, hrest, List.append_nil]

/-- No tab is left in the indentation of a line. -/
theorem untab_untab (line : Text) : untab (untab line) = untab line := by
  have htab : '\t' ∉ indentation (untab line) := by
    rw [indentation_untab]
    exact List.count_eq_zero.1 (count_tab_expandTabs _)
  have hnone : expandLine? (untab line) 0 = none := by simpa [expandLine?] using htab
  exact expandLine?_mapsLines.unchanged hnone

end Indentation

section Generation
variable {r : FixRequest} {edit? : Text → Nat → Option Edit} {f : Text → Text} {description : String} {hundredths : Nat}

lemma build?_eq_none {edits : List Edit} : build? r description edits hundredths = none ↔ edits = [] := by
  rw [build?, ite_eq_left_iff]
  simp

lemma MapsLines.lineEdits_eq_nil (h : MapsLines edit? f) (t : Text) :
    lineEdits t none edit? = [] ↔ ∀ l ∈ lines t, f l = l := by
  rw [lineEdits, List.reverse_eq_nil_iff]
  exact h.editsFrom_eq_nil (lines_spec t).2 0

/-- The fix that edits all lines of a text is applied in full, and maps every line. -/
theorem MapsLines.apply_build? {σ : Type} {files : Files σ} {root place : String} {text : σ → Option Text} {s : σ}
    {fix : Fix} (h : MapsLines edit? f)
    (hfix : build? r description (lineEdits r.content none edit?) hundredths = some fix)
    (hplace : resolve root (Path.normalize r.issue.filePath) = .ok place) (hkeeps : files.Keeps place text)
    (hs : text s = some r.content) (hlines : newlines r.content < Json.maxWord) :
    ∃ shifts s', fix.apply files root {} s = (.ok (), shifts, s') ∧ text s' = some (mapLines f r.content) := by
  obtain ⟨hne, hchanges⟩ := changes_of_build? hfix
  have hrewrites := h.editsLines.lineEdits r.content none
  have htext := h.applyAll_lineEdits r.content
  obtain ⟨e, above, hedits⟩ := List.exists_cons_of_ne_nil hne
  rw [hedits] at hrewrites hchanges htext
  have hin := List.forall_mem_cons.1 hrewrites.inLine
  have hcontent : r.content ≠ [] := by
    intro hnil
    have hlt := hin.1.lt
    have hinside := hin.1.inside
    rw [hnil, List.length_nil] at hinside
    omega
  obtain ⟨shifts, s', happly, hs', _⟩ := applyChanges_descending hplace hkeeps hcontent hlines
    (descending_of_inLine hin.1.fits hin.2 hrewrites.order) hs (fun _ _ => rfl) LineShifts.tracks_nil
    (fun _ _ _ ha => (List.not_mem_nil ha).elim)
  exact ⟨shifts, s', by rw [Fix.apply, hchanges, happly], htext ▸ hs'⟩

lemma generate_eq_build?
    (hf : r.issue.type = trailingWhitespace ∧ f = strip ∨ r.issue.type = mixedIndentation ∧ f = untab)
    (hline : r.issue.line = none) : ∃ edit? description hundredths, MapsLines edit? f ∧
      ∀ t, generate { r with content := t } =
        build? { r with content := t } description (lineEdits t none edit?) hundredths := by
  rcases hf with ⟨htype, rfl⟩ | ⟨htype, rfl⟩
  · refine ⟨_, "Remove trailing whitespace", 98, trimLine?_mapsLines, fun t => ?_⟩
    rw [generate, if_pos (beq_iff_eq.2 htype), hline]
  · have htrailing : (mixedIndentation == trailingWhitespace) = false := by decide
    have hfinal : (mixedIndentation == missingFinalNewline) = false := by decide
    refine ⟨_, "Convert tab indentation to spaces", 85, expandLine?_mapsLines, fun t => ?_⟩
    simp only [generate, htype, htrailing, hfinal, Bool.false_eq_true, if_false, BEq.rfl, if_true, hline]

lemma MapsLines.fixed_iff (h : MapsLines edit? f) (t : Text) :
    (∀ l ∈ lines (mapLines f t), f l = l) ↔ ∀ l ∈ lines t, f (f l) = f l := by
  rw [lines_mapLines (fun _ => h.flat), List.forall_mem_map]

end Generation

/-- Formatting of a text without a line is a map of lines. No fix is made just when no line needs one. Otherwise the
fix is applied in full, and the text it leaves has each line without the spaces and tabs at its end or before the
carriage return at its end, or with four spaces for each tab in its indentation. For that text no fix is made, unless a
stripped line ends with a carriage return that stands behind a space or tab. The line ends of the text can be counted in
a word. -/
theorem generate_maps_lines (files : Files σ) (root place : String) (text : σ → Option Text) (s : σ) (r : FixRequest)
    (f : Text → Text)
    (hf : r.issue.type = trailingWhitespace ∧ f = strip ∨ r.issue.type = mixedIndentation ∧ f = untab)
    (hline : r.issue.line = none) (hplace : resolve root (Path.normalize r.issue.filePath) = .ok place)
    (hkeeps : files.Keeps place text) (hs : text s = some r.content) (hlines : newlines r.content < Json.maxWord) :
    (generate r = none ↔ ∀ l ∈ lines r.content, f l = l) ∧
    ∀ fix, generate r = some fix →
      (∃ shifts s', fix.apply files root {} s = (.ok (), shifts, s') ∧ text s' = some (mapLines f r.content)) ∧
      lines (mapLines f r.content) = (lines r.content).map f ∧
      (generate { r with content := mapLines f r.content } = none ↔
        (r.issue.type = trailingWhitespace → ∀ l ∈ lines r.content, ¬ BaresReturn l)) := by
  obtain ⟨edit?, description, hundredths, hmaps, hgenerate⟩ := generate_eq_build? hf hline
  have hclean : ∀ t, generate { r with content := t } = none ↔ ∀ l ∈ lines t, f l = l := fun t => by
    rw [hgenerate, build?_eq_none, hmaps.lineEdits_eq_nil]
  refine ⟨hclean r.content, fun fix hfix => ⟨?_, lines_mapLines (fun _ => hmaps.flat) _, ?_⟩⟩
  · exact hmaps.apply_build? ((hgenerate r.content).symm.trans hfix) hplace hkeeps hs hlines
  · rw [hclean, hmaps.fixed_iff]
    rcases hf with ⟨htype, rfl⟩ | ⟨htype, rfl⟩
    · simp only [strip_strip_iff, htype, true_imp_iff]
    · have hother : r.issue.type ≠ trailingWhitespace := by
        rw [htype]
        decide
      exact iff_of_true (fun l _ => untab_untab l) fun h => absurd h hother

/-- Lines that are alike, an empty one among them, with padding before a carriage return, a line end and the end of
the text. -/
theorem generate_maps_lines_alike :
    let t := "\x7d \r\n\n\x7d\t\n\x7d ".toList
    ∃ fix ∈ Specimen.made fixer (Specimen.askedAll t "trailing-whitespace"),
      fix.changes.length = 3 ∧
      (∃ shifts m, fix.apply Memory.files "/ws" {} (Specimen.holding t) = (.ok (), shifts, m) ∧
        Memory.text? "/ws/a.txt" m = some "\x7d\r\n\n\x7d\n\x7d".toList) := by
  intro t
  have hmade : (Specimen.made fixer (Specimen.askedAll t "trailing-whitespace")).map (fun fix => fix.changes.length) =
      [3] := by decide +kernel
  obtain ⟨fix, hfix, hchanges⟩ := List.map_eq_singleton_iff.1 hmade
  have hmem : fix ∈ Specimen.made fixer (Specimen.askedAll t "trailing-whitespace") := by
    rw [hfix]
    exact List.mem_cons_self
  obtain ⟨⟨shifts, m, happly, htext⟩, _⟩ := (generate_maps_lines Memory.files "/ws" "/ws/a.txt"
    (Memory.text? "/ws/a.txt") (Specimen.holding t) (Specimen.askedAll t "trailing-whitespace") strip
    (.inl ⟨rfl, rfl⟩) rfl (by decide +kernel) (Memory.keeps _) (by decide +kernel) (by decide +kernel)).2 fix
    (Except.ok.inj (Specimen.mem_made hmem))
  exact ⟨fix, hmem, hchanges, shifts, m, happly, htext.trans (by decide +kernel)⟩

/-- The fix for a line with padding on both sides of a carriage return is applied, and another fix is made for what it
leaves. -/
theorem stripping_bares_return :
    let t := "a \r \n".toList
    let fixes := Specimen.made fixer (Specimen.askedAll t "trailing-whitespace")
    let run := applyEach Memory.files "/ws" fixes {} (Specimen.holding t)
    run.1.map Attempt.outcome = [.ok ()] ∧ Memory.text? "/ws/a.txt" run.2 = some "a \r\n".toList ∧
      (Specimen.made fixer (Specimen.askedAll "a \r\n".toList "trailing-whitespace")).length = 1 := by
  decide +kernel

end Formatting
end Autofix
