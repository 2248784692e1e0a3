import Autofix.Fixer.Formatting
import Autofix.Proofs.Edit.Lost

/-! The edits of the formatting fixer. Each is an edit inside one line that takes away what the line was found
by, and those of a whole text come from its last line up. -/
namespace Autofix
open Text

namespace Edit
variable {t a m b : Text} {e : Edit}

/-- An edit of something inside one line, without line ends. -/
structure InLine (t : Text) (e : Edit) : Prop where
  lt : e.start < e.stop
  inLine : e.stop ≤ lineEnd t e.start
  inside : e.stop ≤ t.length
  flat : newlines e.replacement = 0

namespace InLine

lemma fits (h : e.InLine t) : e.Fits t := ⟨h.lt.le, h.inside⟩

lemma newlines_slice (h : e.InLine t) : newlines (slice t e.start e.stop) = 0 := by
  have hflat := newlines_slice_lineEnd (h.fits.le.trans h.inside)
  rw [← slice_append_slice t h.lt.le h.inLine, newlines_append] at hflat
  omega

lemma growth (h : e.InLine t) : e.growth t = 0 := by
  rw [Edit.growth, h.newlines_slice, h.flat]
  rfl

/-- The anchor of an edit inside a line ends with the line. -/
lemma anchored_stop (h : e.InLine t) : (e.anchored t).stop = lineEnd t e.start := by
  have hstart := h.fits.le.trans h.inside
  have hline : lineOf t e.start = lineOf t e.stop := by
    rw [lineOf, lineOf, ← take_append_slice t h.lt.le, newlines_append, h.newlines_slice, Nat.add_zero]
  have hend := (lineBounds_of_lineOf_eq h.lt.le h.inside hline).2
  have hlt := h.lt
  have hin := h.inLine
  have heq : (e.anchored t).stop = (lineAnchor t e).2 := rfl
  rcases lineAnchor_stop_cases t e with ⟨_, _, hlast⟩ | ⟨hstop, _⟩ | ⟨_, hempty⟩
  · have := eq_of_endsLine hstart hlt.le hin (.inr hlast)
    omega
  · rw [heq, hstop, hend]
  · have := lineStart_le t e.start
    omega

end InLine

lemma newlines_replaced {r : Text} (hm : newlines m = 0) (hr : newlines r = 0) (i j : Nat) :
    newlines (m.take i ++ r ++ m.drop j) = 0 := by
  rw [newlines_append, newlines_append, hr, newlines_of_sublist (List.take_sublist i m) hm,
    newlines_of_sublist (List.drop_sublist j m) hm]

/-- An edit inside a stretch between two line ends, and what it makes of it. -/
lemma inLine_append (ha : EndsLine a) (hm : newlines m = 0) (hb : b = [] ∨ b.head? = some '\n') {i j : Nat}
    {r : Text} (hij : i < j) (hj : j ≤ m.length) (hr : newlines r = 0) (he : e = ⟨a.length + i, a.length + j, r⟩) :
    e.InLine (a ++ m ++ b) ∧ lineAt (a ++ m ++ b) e.start = m ∧
      lineAt (e.apply (a ++ m ++ b)) e.start = m.take i ++ r ++ m.drop j := by
  subst he
  have hbounds := lineBounds_append (k := i) ha hm hb (by omega)
  have hcut := newlines_replaced hm hr i j
  refine ⟨⟨by simp only; omega, ?_, ?_, hr⟩, lineAt_append ha hm hb (by omega), ?_⟩
  · simp only [hbounds.2]
    omega
  · simp only [List.length_append]
    omega
  · have happly : apply ⟨a.length + i, a.length + j, r⟩ (a ++ m ++ b) = a ++ (m.take i ++ r ++ m.drop j) ++ b := by
      simp only [apply, splice, List.append_assoc, List.take_length_add_append, List.drop_length_add_append,
        List.take_append_of_le_length (show i ≤ m.length by omega), List.drop_append_of_le_length hj]
    rw [happly]
    refine lineAt_append ha hcut hb ?_
    simp only [List.length_append, List.length_take]
    omega

/-- Edits inside lines, from the last line up, each of which takes away what its line was found by. -/
structure RewritesLines (t : Text) (edits : List Edit) : Prop where
  inLine : ∀ e ∈ edits, e.InLine t
  loses : ∀ e ∈ edits, e.Loses t
  order : edits.Pairwise fun e f => lineEnd t f.start < lineStart t e.start

lemma RewritesLines.singleton (h : e.InLine t) (hloses : e.Loses t) : RewritesLines t [e] where
  inLine _ hf := List.mem_singleton.1 hf ▸ h
  loses _ hf := List.mem_singleton.1 hf ▸ hloses
  order := List.pairwise_singleton _ _

end Edit

@[simp] lemma Fix.changes_create (provider issueId description : String) (changes : List Change)
    (confidence : Confidence) (risk : Risk) :
    (Fix.create provider issueId description changes confidence risk).changes = changes := rfl

namespace Formatting
open Edit
variable {t a m b : Text} {e : Edit} {edit? : Text → Nat → Option Edit}

/-- What is made of a line is an edit of a part of it, and the line is not part of the result. -/
def EditsLines (edit? : Text → Nat → Option Edit) : Prop :=
  ∀ (line : Text) (start : Nat) (e : Edit), newlines line = 0 → edit? line start = some e →
    ∃ i j r, e = ⟨start + i, start + j, r⟩ ∧ i < j ∧ j ≤ line.length ∧ newlines r = 0 ∧
      ¬ line <:+: line.take i ++ r ++ line.drop j

lemma prefix_lineBody (line : Text) : lineBody line <+: line := by
  rw [lineBody]
  split
  · exact List.dropLast_prefix _
  · exact List.prefix_rfl

/-- Trimming makes an edit for each line that it changes, and what is left of the line is too short to hold the
old one. -/
lemma trimLine?_editsLines : EditsLines trimLine? := by
  intro line start e _ he
  simp only [trimLine?] at he
  split at he
  · next hlt =>
    have hle := (prefix_lineBody line).length_le
    refine ⟨_, _, [], (Option.some.inj he).symm, hlt, hle, rfl, fun hin => ?_⟩
    have hlen := hin.length_le
    simp only [List.append_nil, List.length_append, List.length_take, List.length_drop] at hlen
    omega
  · cases he

lemma count_tab_expandTabs (indentation : Text) : (expandTabs indentation).count '\t' = 0 := by
  rw [List.count_eq_zero, expandTabs, List.mem_flatMap]
  rintro ⟨c, _, hc⟩
  split at hc
  · simp at hc
  · next htab => exact htab (beq_iff_eq.2 (List.mem_singleton.1 hc).symm)

lemma newlines_expandTabs {indentation : Text} (h : newlines indentation = 0) :
    newlines (expandTabs indentation) = 0 := by
  rw [newlines_eq_zero] at h ⊢
  intro c hc
  obtain ⟨d, hd, hc⟩ := List.mem_flatMap.1 hc
  split at hc
  · simp_all [isNewline]
  · rw [List.mem_singleton.1 hc]
    exact h d hd

/-- Expanding makes an edit for each line with a tab, and the old line cannot be found in the result, which has
fewer tabs. -/
lemma expandLine?_editsLines : EditsLines expandLine? := by
  intro line start e hline he
  simp only [expandLine?] at he
  split at he
  · next htab =>
    have hpre : indentation line <+: line := List.takeWhile_prefix _
    have htab : '\t' ∈ indentation line := by simpa using htab
    have hcount := List.count_pos_iff.2 htab
    have hsplit : (line.take (indentation line).length).count '\t' + (line.drop (indentation line).length).count '\t' =
        line.count '\t' := by
      rw [← List.count_append, List.take_append_drop]
    rw [← List.prefix_iff_eq_take.1 hpre] at hsplit
    have hflat : newlines (indentation line) = 0 := newlines_of_sublist hpre.sublist hline
    refine ⟨0, _, _, (Option.some.inj he).symm, List.length_pos_of_mem htab, hpre.length_le,
      newlines_expandTabs hflat, fun hin => ?_⟩
    have hle := hin.sublist.count_le '\t'
    rw [List.count_append, List.count_append, count_tab_expandTabs] at hle
    simp only [List.take_zero, List.count_nil] at hle
    omega
  · cases he

lemma EditsLines.inLine (h : EditsLines edit?) (ha : EndsLine a) (hm : newlines m = 0)
    (hb : b = [] ∨ b.head? = some '\n') (he : edit? m a.length = some e) :
    e.InLine (a ++ m ++ b) ∧ e.Loses (a ++ m ++ b) ∧ lineStart (a ++ m ++ b) e.start = a.length ∧
      lineEnd (a ++ m ++ b) e.start = a.length + m.length := by
  obtain ⟨i, j, r, rfl, hij, hj, hr, hlost⟩ := h m a.length e hm he
  obtain ⟨hin, hbefore, hafter⟩ := inLine_append ha hm hb hij hj hr rfl
  obtain ⟨hstart, hend⟩ := lineBounds_append (k := i) ha hm hb (by omega)
  refine ⟨hin, ?_, hstart, hend⟩
  rw [Loses, hbefore, hafter]
  exact hlost

/-- The edits of some lines that end a text, from the first to the last. -/
lemma EditsLines.editsFrom (h : EditsLines edit?) {front : Text} {ls : List Text} (hfront : EndsLine front)
    (hflat : ∀ l ∈ ls, newlines l = 0) (ht : t = front ++ join ['\n'] ls) :
    (∀ e ∈ editsFrom edit? front.length ls, (e.InLine t ∧ e.Loses t) ∧ front.length ≤ lineStart t e.start) ∧
      (editsFrom edit? front.length ls).Pairwise fun e f => lineEnd t e.start < lineStart t f.start := by
  induction ls generalizing front with
  | nil => exact ⟨fun e he => (List.not_mem_nil he).elim, .nil⟩
  | cons line rest ih =>
    rw [List.forall_mem_cons] at hflat
    obtain ⟨back, hback, hsplit, hrest⟩ : ∃ back, (back = [] ∨ back.head? = some '\n') ∧ t = front ++ line ++ back ∧
        (rest ≠ [] → t = front ++ line ++ ['\n'] ++ join ['\n'] rest) := by
      cases rest with
      | nil => exact ⟨[], .inl rfl, by simp [ht, join], fun hne => absurd rfl hne⟩
      | cons next more =>
        exact ⟨'\n' :: join ['\n'] (next :: more), .inr rfl, by simp [ht, join], fun _ => by simp [ht, join]⟩
    have hnext : EndsLine (front ++ line ++ ['\n']) := .inr (by simp)
    have hlen : (front ++ line ++ ['\n']).length = front.length + line.length + 1 := by simp; omega
    have hlast : (∀ e ∈ Formatting.editsFrom edit? (front.length + line.length + 1) rest,
        (e.InLine t ∧ e.Loses t) ∧ front.length + line.length + 1 ≤ lineStart t e.start) ∧
        (Formatting.editsFrom edit? (front.length + line.length + 1) rest).Pairwise
          fun e f => lineEnd t e.start < lineStart t f.start := by
      by_cases hne : rest = []
      · subst hne
        exact ⟨fun e he => (List.not_mem_nil he).elim, .nil⟩
      · have := ih hnext hflat.2 (hrest hne)
        rwa [hlen] at this
    have hfirst : ∀ e ∈ (edit? line front.length).toList, (e.InLine t ∧ e.Loses t) ∧
        lineStart t e.start = front.length ∧ lineEnd t e.start = front.length + line.length := by
      intro e he
      obtain ⟨hin, hloses, hbounds⟩ := h.inLine hfront hflat.1 hback (Option.mem_toList.1 he)
      rw [hsplit]
      exact ⟨⟨hin, hloses⟩, hbounds⟩
    rw [Formatting.editsFrom, List.forall_mem_append, List.pairwise_append]
    refine ⟨⟨fun e he => ⟨(hfirst e he).1, (hfirst e he).2.1.ge⟩, fun e he => ⟨(hlast.1 e he).1, ?_⟩⟩, ?_, hlast.2,
      fun e he f hf => ?_⟩
    · have := (hlast.1 e he).2
      omega
    · cases edit? line front.length with
      | none => exact .nil
      | some e => exact List.pairwise_singleton _ _
    · have := (hfirst e he).2.2
      have := (hlast.1 f hf).2
      omega

/-- The edits of the lines of a text are made from the last one up, each inside of its line. -/
theorem EditsLines.lineEdits (h : EditsLines edit?) (t : Text) (line : Option Nat) :
    RewritesLines t (Formatting.lineEdits t line edit?) := by
  have hnil : RewritesLines t [] := ⟨fun _ he => (List.not_mem_nil he).elim, fun _ he => (List.not_mem_nil he).elim, .nil⟩
  cases line with
  | none =>
    obtain ⟨hin, horder⟩ := h.editsFrom (t := t) (.inl rfl) (lines_spec t).2 (lines_spec t).1.symm
    exact ⟨fun e he => (hin e (List.mem_reverse.1 he)).1.1, fun e he => (hin e (List.mem_reverse.1 he)).1.2,
      List.pairwise_reverse.2 horder⟩
  | some line =>
    rw [Formatting.lineEdits]
    cases line with
    | zero => exact hnil
    | succ row =>
      simp only [lineRange?]
      cases hbelow : lineStartBelow? t 0 row with
      | none => exact hnil
      | some p =>
        have hp := lineStartBelow?_le (Nat.zero_le _) hbelow
        have hline : slice t (lineStart t p) (lineEnd t p) = lineAt t p := rfl
        simp only [Option.map_some, lineBounds, Option.bind_eq_bind, Option.bind_some, hline]
        cases hedit : edit? (lineAt t p) (lineStart t p) with
        | none => exact hnil
        | some e =>
          have hlen : (t.take (lineStart t p)).length = lineStart t p :=
            List.length_take_of_le ((lineStart_le t p).trans hp)
          obtain ⟨hin, hloses, _⟩ := h.inLine (endsLine_take_lineStart t p) (newlines_lineAt hp)
            (drop_lineEnd_cases hp) (hlen.symm ▸ hedit)
          rw [split_lineAt hp] at hin hloses
          exact .singleton hin hloses

lemma changes_of_build? {r : FixRequest} {description : String} {edits : List Edit} {hundredths : Nat} {f : Fix}
    (h : build? r description edits hundredths = some f) :
    edits ≠ [] ∧ f.changes = edits.map (toChange r.issue.filePath r.content) := by
  rw [build?] at h
  split at h
  · cases h
  · next hne =>
    obtain rfl := Option.some.inj h
    exact ⟨by simpa using hne, Fix.changes_create ..⟩

/-- A fix for the ends of lines or for indentations edits lines from the last one up. -/
theorem changes_of_generate {r : FixRequest} {f : Fix} (h : generate r = some f)
    (htype : r.issue.type ≠ missingFinalNewline) :
    ∃ edits, edits ≠ [] ∧ f.changes = edits.map (toChange r.issue.filePath r.content) ∧
      RewritesLines r.content edits := by
  simp only [generate] at h
  split at h
  · have hbuilt := changes_of_build? h
    exact ⟨_, hbuilt.1, hbuilt.2, trimLine?_editsLines.lineEdits _ _⟩
  · split at h
    · next hfinal => exact absurd (beq_iff_eq.1 hfinal) htype
    · split at h
      · have hbuilt := changes_of_build? h
        exact ⟨_, hbuilt.1, hbuilt.2, expandLine?_editsLines.lineEdits _ _⟩
      · cases h

/-- A fix for a missing line end appends it to a text that does not end with one. -/
theorem changes_of_missingFinalNewline {r : FixRequest} {f : Fix} (h : generate r = some f)
    (htype : r.issue.type = missingFinalNewline) :
    r.content ≠ [] ∧ f.changes =
      [toChange r.issue.filePath r.content ⟨r.content.length, r.content.length, ['\n']⟩] := by
  have hother : (missingFinalNewline == trailingWhitespace) = false := by decide
  simp only [generate, htype, hother, beq_self_eq_true, if_true, Bool.false_eq_true, if_false] at h
  split at h
  · cases h
  · next hopen =>
    refine ⟨fun hnil => hopen (by simp [hnil]), ?_⟩
    exact (changes_of_build? h).2

end Formatting
end Autofix
