import Autofix.Proofs.Apply.Landing
import Autofix.Proofs.Fixer.Edits

/-! A fix applied after another one that was made for the same text. Its anchor is found where the first
edit has carried it, on the line that the shifts give, unless the first edit has put lines right above it. -/
namespace Autofix
open Text Edit

namespace Edit
variable {t : Text} {e : Edit} {p : Nat}

/-- Where a position outside of the edited stretch stands after the edit. -/
def carry (e : Edit) (p : Nat) : Nat := if e.stop ≤ p then e.start + e.replacement.length + (p - e.stop) else p

/-- The edit puts lines in where a position is. -/
def PushesDown (e : Edit) (p : Nat) : Prop := e.start = e.stop ∧ e.stop = p ∧ 0 < newlines e.replacement

instance (e : Edit) (p : Nat) : Decidable (e.PushesDown p) := inferInstanceAs (Decidable (_ ∧ _))

lemma take_apply_of_le (he : e.Fits t) (hp : p ≤ e.start) : (e.apply t).take p = t.take p := by
  have hlen : (t.take e.start).length = e.start := List.length_take_of_le (he.le.trans he.inside)
  rw [apply, splice, List.append_assoc, List.take_append_of_le_length (by omega), List.take_take, Nat.min_eq_left hp]

lemma take_apply_carry (he : e.Fits t) (hp : e.stop ≤ p) :
    (e.apply t).take (e.carry p) = t.take e.start ++ e.replacement ++ slice t e.stop p := by
  have hlen : (t.take e.start ++ e.replacement).length = e.start + e.replacement.length := by
    rw [List.length_append, List.length_take_of_le (he.le.trans he.inside)]
  rw [carry, if_pos hp, apply, splice, ← hlen, List.take_length_add_append, slice, List.drop_take]

lemma growth_anchored (he : e.Fits t) : (e.anchored t).growth t = e.growth t := by
  obtain ⟨hopen, hclose, _⟩ := anchored_bounds he
  have hsplit : newlines (slice t (e.anchored t).start (e.anchored t).stop) =
      newlines (slice t (e.anchored t).start e.start) + newlines (slice t e.start e.stop) +
        newlines (slice t e.stop (e.anchored t).stop) := by
    rw [← slice_append_slice t hopen (he.le.trans hclose), ← slice_append_slice t he.le hclose, newlines_append,
      newlines_append, Nat.add_assoc]
  have hnew : newlines (e.anchored t).replacement = newlines (slice t (e.anchored t).start e.start) +
      newlines e.replacement + newlines (slice t e.stop (e.anchored t).stop) := by
    rw [← newlines_append, ← newlines_append]
    rfl
  rw [growth, growth, hsplit, hnew]
  omega

lemma growth_of_insertion (t : Text) (h : e.start = e.stop) : e.growth t = newlines e.replacement := by
  rw [growth, h, slice_self]
  simp [newlines]

/-- Below an edit the lines are carried by as many as the edit adds. -/
lemma lineOf_carry (he : e.Fits t) (hp : e.stop ≤ p) :
    (lineOf (e.apply t) (e.carry p) : Int) = lineOf t p + e.growth t := by
  have hold : newlines (t.take p) = newlines (t.take e.start) + newlines (slice t e.start e.stop) +
      newlines (slice t e.stop p) := by
    rw [← newlines_append, ← newlines_append, take_append_slice t he.le, take_append_slice t hp]
  rw [lineOf, lineOf, take_apply_carry he hp, newlines_append, newlines_append, growth, hold]
  omega

end Edit

section Lines
variable {path : String} {t : Text} {e g : Edit} {shifts : LineShifts} {applied : List Edit}

/-- The line on which the shifts expect an anchor after some edits. -/
lemma LineShifts.Tracks.expectedLine?_toChange (h : shifts.Tracks path t applied) :
    shifts.expectedLine? (g.toChange path t) = some (moveLine (lineOf t (g.anchored t).start)
      (applied.map fun a => if a.lastLine t < lineOf t (g.anchored t).start then a.growth t else 0).sum) := by
  rw [← h.offset]
  simp [expectedLine?, currentLine?, h.replaced, toChange_eq, substitution]

lemma LineShifts.expectedLine?_eq_currentLine? (shifts : LineShifts) (path : String) (t : Text) (g : Edit) :
    shifts.expectedLine? (g.toChange path t) =
      shifts.currentLine? (Path.normalize path) (lineOf t (g.anchored t).start) := rfl

lemma LineShifts.moveLine_eq {line k : Nat} {offset : Int} (h : (line : Int) + offset = k) (hk : k ≤ Json.maxWord) :
    moveLine line offset = k := by
  rw [moveLine, h, Int.toNat_natCast, Nat.min_eq_left hk]

lemma expectedLine?_record (ht : t ≠ []) (he : e.Fits t) :
    (LineShifts.record {} (e.toChange path t)).expectedLine? (g.toChange path t) =
      some (LineShifts.moveLine (lineOf t (g.anchored t).start)
        (if lastLine t (e.anchored t) < lineOf t (g.anchored t).start then e.growth t else 0)) := by
  have hnil : LineShifts.Tracks {} path t [] := LineShifts.tracks_nil
  have htracks := hnil.record (isAnchor_anchored ht he.le he.inside)
  rw [← toChange_eq] at htracks
  rw [htracks.expectedLine?_toChange]
  simp [growth_anchored he]

/-- An anchor is expected on its line if nothing above it has grown. -/
lemma LineShifts.Tracks.expectedLine?_of_above (h : shifts.Tracks path t applied)
    (hlines : newlines t < Json.maxWord)
    (habove : ∀ a ∈ applied, a.lastLine t < lineOf t (e.anchored t).start → a.growth t = 0) :
    shifts.expectedLine? (e.toChange path t) = some (lineOf t (e.anchored t).start) := by
  have hzero : (applied.map fun a => if a.lastLine t < lineOf t (e.anchored t).start then a.growth t else 0) =
      applied.map fun _ => 0 := by
    refine List.map_congr_left fun a ha => ?_
    split
    · next hlt => exact habove a ha hlt
    · rfl
  have hline := lineOf_le_succ_newlines t (e.anchored t).start
  rw [h.expectedLine?_toChange, hzero, Option.some_inj]
  exact LineShifts.moveLine_eq (by simp) (hline.trans hlines)

lemma expectedLine?_nil (path : String) (e : Edit) (hlines : newlines t < Json.maxWord) :
    LineShifts.expectedLine? {} (e.toChange path t) = (e.toChange path t).startLine :=
  LineShifts.tracks_nil.expectedLine?_of_above hlines fun _ ha => (List.not_mem_nil ha).elim

lemma lineOf_le_maxWord (he : e.Fits t) (hcount : newlines t + newlines e.replacement < Json.maxWord) (p : Nat) :
    lineOf (e.apply t) p ≤ Json.maxWord := by
  have hp := lineOf_le_succ_newlines (e.apply t) p
  have hwhole : newlines (e.apply t) = newlines (t.take e.start) + newlines e.replacement + newlines (t.drop e.stop) := by
    rw [apply, splice, newlines_append, newlines_append]
  have hold : newlines t = newlines (t.take e.stop) + newlines (t.drop e.stop) := by
    rw [← newlines_append, List.take_append_drop]
  have hle := newlines_take_le t he.le
  omega

/-- After one edit, the shifts expect an anchor outside of it on the line that it was carried to, unless the
edit has put lines in right where the anchor starts. The growth is counted below the last line of the first
anchor, so what matters is on which side of that line the second anchor starts. -/
theorem expectedLine?_carry (path : String) (ht : t ≠ []) (he : e.Fits t) (hg : g.Fits t)
    (hcount : newlines t + newlines e.replacement < Json.maxWord)
    (houtside : (g.anchored t).stop ≤ e.start ∨ e.stop ≤ (g.anchored t).start)
    (hpushed : ¬ e.PushesDown (g.anchored t).start) :
    (LineShifts.record {} (e.toChange path t)).expectedLine? (g.toChange path t) =
      some (lineOf (e.apply t) (e.carry (g.anchored t).start)) := by
  have hmax := lineOf_le_maxWord he hcount (e.carry (g.anchored t).start)
  rw [expectedLine?_record ht he, Option.some_inj]
  have hlt := (isAnchor_anchored ht hg.le hg.inside).lt
  have hle := he.le
  rcases houtside with habove | hbelow
  · have hline := lineOf_le_lastLine ht he hg habove
    have hcarry : e.carry (g.anchored t).start = (g.anchored t).start := if_neg (by omega)
    have hsame : lineOf (e.apply t) (g.anchored t).start = lineOf t (g.anchored t).start := by
      rw [lineOf, lineOf, take_apply_of_le he (by omega)]
    rw [hcarry, hsame] at hmax ⊢
    rw [if_neg (by omega)]
    exact LineShifts.moveLine_eq (Int.add_zero _) hmax
  · have hcarry := lineOf_carry he hbelow
    refine LineShifts.moveLine_eq ?_ hmax
    split
    · exact hcarry.symm
    · next hline =>
      have hinserts : e.start = e.stop ∧ e.stop = (g.anchored t).start := by
        by_contra hapart
        exact hline (lastLine_lt_of_below ht he hg hbelow hapart)
      have hgrowth := growth_of_insertion t hinserts.1
      have hnone : newlines e.replacement = 0 := by
        by_contra hsome
        exact hpushed ⟨hinserts.1, hinserts.2, by omega⟩
      omega

/-- Lines put in right where an anchor starts are not seen by the shifts, if the line there is not empty. -/
theorem expectedLine?_of_pushesDown (path : String) (ht : t ≠ []) (he : e.Fits t) (hg : g.Fits t)
    (hpushed : e.PushesDown (g.anchored t).start) (hline : t[(g.anchored t).start]? ≠ some '\n') :
    (LineShifts.record {} (e.toChange path t)).expectedLine? (g.toChange path t) ≠
      some (lineOf (e.apply t) (e.carry (g.anchored t).start)) := by
  obtain ⟨hempty, hstart, hnewlines⟩ := hpushed
  have ha := isAnchor_anchored ht hg.le hg.inside
  have hlast := lineOf_le_lastLine_of_insertion he hempty (by have := ha.lt; have := ha.le; omega) (hstart ▸ hline)
  have hcarry := lineOf_carry he (Nat.le_of_eq hstart)
  have hgrowth := growth_of_insertion t hempty
  rw [hstart] at hlast
  rw [expectedLine?_record ht he, if_neg (by omega), LineShifts.moveLine, Int.add_zero, Int.toNat_natCast]
  intro hsame
  have hle := Nat.min_le_left (lineOf t (g.anchored t).start) Json.maxWord
  rw [Option.some.inj hsame] at hle
  omega

end Lines

section Carried
variable {path : String} {t u : Text} {e g : Edit} {shifts : LineShifts} {p : Nat}

lemma Change.substitute?_of_find? {c : Change} (hc : c.isWholeFile = false)
    (hfind : find? c.expected.toList u = some p) (line : Nat) :
    c.substitute? (some line) u = if line = lineOf u p then
      some (splice u p (p + c.expected.toList.length) c.replacement.toList) else none := by
  simp [Change.substitute?, hc, hfind]

/-- An anchor that is found somewhere in a text is replaced there exactly if its line is expected. -/
lemma substitute?_carry (path : String) (ht : t ≠ []) (hg : g.Fits t)
    (hfound : find? (slice t (g.anchored t).start (g.anchored t).stop) u = some p) (line : Nat) :
    (g.toChange path t).substitute? (some line) u = if line = lineOf u p then
      some (splice u p (p + (slice t (g.anchored t).start (g.anchored t).stop).length) (g.anchored t).replacement)
      else none := by
  have hexpected : (g.toChange path t).expected.toList = slice t (g.anchored t).start (g.anchored t).stop :=
    String.toList_ofList
  have hreplacement : (g.toChange path t).replacement.toList = (g.anchored t).replacement := String.toList_ofList
  have hwhole : (g.toChange path t).isWholeFile = false := by
    rw [toChange_eq]
    exact isWholeFile_substitution path (isAnchor_anchored ht hg.le hg.inside)
  rw [← hexpected] at hfound ⊢
  rw [← hreplacement]
  exact Change.substitute?_of_find? hwhole hfound line

end Carried

section Apply
variable {σ : Type} {files : Files σ} {root path place : String} {text : σ → Option Text} {t u : Text} {e g : Edit}
  {c : Change} {f : Fix} {shifts : LineShifts} {s : σ}

/-- A fix with one change writes what the change makes of the text. -/
lemma apply_of_substitute? (hplace : resolve root c.filePath = .ok place) (hkeeps : files.Keeps place text)
    (hf : f.changes = [c]) (hs : text s = some t) (hsubst : c.substitute? (shifts.expectedLine? c) t = some u) :
    ∃ s', f.apply files root shifts s = (.ok (), shifts.record c, s') ∧ text s' = some u := by
  obtain ⟨s₁, hread, hs₁⟩ := hkeeps.read hs
  obtain ⟨s₂, hwrite, hs₂⟩ := hkeeps.write u hs₁
  refine ⟨s₂, ?_, hs₂⟩
  rw [apply_of_changes_eq hf]
  exact applyChange_of_write hplace hread hsubst hwrite

/-- A fix whose first change the text does not allow is stale and leaves the text. -/
lemma apply_of_stale {more : List Change} (hplace : resolve root c.filePath = .ok place)
    (hkeeps : files.Keeps place text) (hf : f.changes = c :: more) (hs : text s = some t)
    (hsubst : c.substitute? (shifts.expectedLine? c) t = none) :
    ∃ s', f.apply files root shifts s = (.error (.stale c.filePath), shifts, s') ∧ text s' = some t := by
  obtain ⟨s₁, hread, hs₁⟩ := hkeeps.read hs
  refine ⟨s₁, ?_, hs₁⟩
  rw [Fix.apply, hf, applyChanges, applyChange_of_stale hplace hread hsubst]

end Apply

/-- A fix whose anchor another fix has left alone is found again. Two fixes with one change each, that fixers of
the program make for one text with any sound parser, make one edit each. Let the anchor of the second edit lie
outside of what the first one edits, and let it still be the first occurrence of its text after the first edit. Then
the first fix is applied, and the shifts give the line that the anchor was carried to, so the second fix replaces it
there; except that lines which the first edit puts in right where the anchor starts, on a line that is not empty, are
not seen, and make the second fix stale. The line ends of the text and of the first replacement, which are in memory
together, can be counted in a word. -/
theorem apply_next (parser : Parser) (hparser : parser.IsSound) (files : Files σ) (root path place : String)
    (text : σ → Option Text) (t : Text) (s : σ) (fixer fixer' : Fixer) (r r' : FixRequest) (first second : Fix)
    (hfixer : fixer ∈ Registry.builtin parser) (hfixer' : fixer' ∈ Registry.builtin parser)
    (hfirst : fixer.generate r = .ok (some first)) (hsecond : fixer'.generate r' = .ok (some second))
    (hr : r.content = t ∧ r.issue.filePath = path)
    (hr' : r'.content = t ∧ r'.issue.filePath = path) (hone : first.changes.length = 1)
    (hone' : second.changes.length = 1) (hplace : resolve root (Path.normalize path) = .ok place)
    (hkeeps : files.Keeps place text) (ht : t ≠ []) (hs : text s = some t) :
    (∃ e g : Edit, first.MakesEdits r [e] ∧ e.Fits t ∧ second.MakesEdits r' [g] ∧ g.Fits t) ∧
    ∀ e g : Edit, first.MakesEdits r [e] → e.Fits t → second.MakesEdits r' [g] → g.Fits t →
      newlines t + newlines e.replacement < Json.maxWord →
      (g.anchored t).stop ≤ e.start ∨ e.stop ≤ (g.anchored t).start →
      find? (slice t (g.anchored t).start (g.anchored t).stop) (e.apply t) = some (e.carry (g.anchored t).start) →
      ∃ shifts s', first.apply files root {} s = (.ok (), shifts, s') ∧ text s' = some (e.apply t) ∧
        (¬ e.PushesDown (g.anchored t).start →
          shifts.currentLine? (Path.normalize path) (lineOf t (g.anchored t).start) =
            some (lineOf (e.apply t) (e.carry (g.anchored t).start)) ∧
          ∃ shifts' s'', second.apply files root shifts s' = (.ok (), shifts', s'') ∧
            text s'' = some (splice (e.apply t) (e.carry (g.anchored t).start)
              (e.carry (g.anchored t).start + (slice t (g.anchored t).start (g.anchored t).stop).length)
              (g.anchored t).replacement)) ∧
        (e.PushesDown (g.anchored t).start → t[(g.anchored t).start]? ≠ some '\n' →
          ∃ s'', second.apply files root shifts s' = (.error (.stale (Path.normalize path)), shifts, s'') ∧
            text s'' = some (e.apply t)) := by
  obtain ⟨rfl, rfl⟩ := hr
  obtain ⟨hsame, hpath⟩ := hr'
  refine ⟨?_, fun e g hfirst he hsecond hg hcount houtside hfound => ?_⟩
  · obtain ⟨e, hedit, he⟩ := Registry.builtin_change hparser hfixer hfirst hone
    obtain ⟨g, hedit', hg⟩ := Registry.builtin_change hparser hfixer' hsecond hone'
    exact ⟨e, g, hedit, he, hedit', hsame ▸ hg⟩
  · rw [Fix.MakesEdits, hsame, hpath] at hsecond
    have hstart := expectedLine?_nil r.issue.filePath e (t := r.content) (by omega)
    obtain ⟨s', happly, hs'⟩ :=
      apply_of_substitute? hplace hkeeps hfirst hs (substitute?_toChange r.issue.filePath he (.inl hstart))
    have hsubst := substitute?_carry r.issue.filePath ht hg hfound
    refine ⟨_, s', happly, hs', fun hpushed => ?_, fun hpushed hline => ?_⟩
    · have hexpected := expectedLine?_carry r.issue.filePath ht he hg hcount houtside hpushed
      have hnow := hsubst (lineOf (e.apply r.content) (e.carry (g.anchored r.content).start))
      rw [if_pos rfl, ← hexpected] at hnow
      obtain ⟨s'', hnext, hs''⟩ := apply_of_substitute? hplace hkeeps hsecond hs' hnow
      rw [← LineShifts.expectedLine?_eq_currentLine?]
      exact ⟨hexpected, _, s'', hnext, hs''⟩
    · have hexpected := expectedLine?_of_pushesDown r.issue.filePath ht he hg hpushed hline
      refine apply_of_stale hplace hkeeps hsecond hs' ?_
      rw [expectedLine?_record ht he] at hexpected ⊢
      rw [hsubst, if_neg (mt (congrArg some) hexpected)]

namespace Specimen

def made (fixer : Fixer) (r : FixRequest) : List Fix :=
  match fixer.generate r with
  | .ok f => f.toList
  | .error _ => []

lemma mem_made {fixer : Fixer} {r : FixRequest} {f : Fix} (h : f ∈ made fixer r) : fixer.generate r = .ok (some f) := by
  rw [made] at h
  split at h
  · next hf => rw [hf, Option.mem_toList.1 h]
  · cases h

/-- What a fixer is asked about an issue on a line of a text. -/
def asked (t : Text) (type : String) (line : Nat) : FixRequest :=
  ⟨⟨"i", type, .low, "a.rs", some line, "", true⟩, t, some .rust, "TODO: document"⟩

def remark : Text := "fn a() \x7b\x7d\n// b  \n".toList

/-- The tree of a function with a comment on the line below. -/
def remarkParser : Parser := parserOf remark (treeOf "source_file" remark
  [functionItem 0, { kind := "line_comment", start := 10, stop := 16, children := [token "//" 10] }])

lemma isSound_remarkParser : remarkParser.IsSound := isSound_parserOf (by decide +kernel)

end Specimen

theorem apply_next_below_stub :
    ∃ first ∈ Specimen.made (Documentation.fixer Specimen.remarkParser) (Specimen.asked Specimen.remark "missing-docs" 1),
    ∃ second ∈ Specimen.made Formatting.fixer (Specimen.asked Specimen.remark "trailing-whitespace" 2),
    ∃ shifts m shifts' m', first.apply Memory.files "/ws" {}
        [(Path.components "/ws/a.rs", encodeText Specimen.remark)] = (.ok (), shifts, m) ∧
      second.apply Memory.files "/ws" shifts m = (.ok (), shifts', m') ∧
      Memory.text? "/ws/a.rs" m' = some "/// TODO: document\nfn a() \x7b\x7d\n// b\n".toList := by
  let stub : Edit := ⟨0, 0, "/// TODO: document\n".toList⟩
  let trim : Edit := ⟨14, 16, []⟩
  have hstub : (Specimen.made (Documentation.fixer Specimen.remarkParser)
      (Specimen.asked Specimen.remark "missing-docs" 1)).map Fix.changes =
        [[stub.toChange "a.rs" Specimen.remark]] := by decide +kernel
  have htrim : (Specimen.made Formatting.fixer
      (Specimen.asked Specimen.remark "trailing-whitespace" 2)).map Fix.changes =
        [[trim.toChange "a.rs" Specimen.remark]] := by decide +kernel
  obtain ⟨first, hfirst, hchange⟩ := List.map_eq_singleton_iff.1 hstub
  obtain ⟨second, hsecond, hchange'⟩ := List.map_eq_singleton_iff.1 htrim
  have hmem : first ∈ Specimen.made (Documentation.fixer Specimen.remarkParser)
      (Specimen.asked Specimen.remark "missing-docs" 1) := by
    rw [hfirst]
    exact List.mem_cons_self
  have hmem' : second ∈ Specimen.made Formatting.fixer (Specimen.asked Specimen.remark "trailing-whitespace" 2) := by
    rw [hsecond]
    exact List.mem_cons_self
  have hone := congrArg List.length hchange
  have hone' := congrArg List.length hchange'
  obtain ⟨shifts, m, happly, _, hnext, _⟩ := (apply_next Specimen.remarkParser Specimen.isSound_remarkParser
    Memory.files "/ws" "a.rs" "/ws/a.rs" (Memory.text? "/ws/a.rs") Specimen.remark
    [(Path.components "/ws/a.rs", encodeText Specimen.remark)] (Documentation.fixer Specimen.remarkParser)
    Formatting.fixer _ _ first second (by simp [Registry.builtin]) (Registry.formatting_mem_builtin _)
    (Specimen.mem_made hmem) (Specimen.mem_made hmem') ⟨rfl, rfl⟩ ⟨rfl, rfl⟩ hone hone' (by decide +kernel)
    (Memory.keeps _) (by decide +kernel) (by decide +kernel)).2 stub trim hchange ⟨by decide, by decide +kernel⟩
    hchange' ⟨by decide, by decide +kernel⟩ (by decide +kernel) (by decide +kernel) (by decide +kernel)
  obtain ⟨_, shifts', m', hafter, htext⟩ := hnext (by decide +kernel)
  exact ⟨first, hmem, second, hmem', shifts, m, shifts', m', happly, hafter, htext.trans (by decide +kernel)⟩

namespace Specimen

def function : Text := "fn a() \x7b\x7d  \n".toList

def functionParser : Parser :=
  parserOf function (treeOf "source_file" function [functionItem 0])

def both : List Fix :=
  made (Documentation.fixer functionParser) (asked function "missing-docs" 1) ++
    made Formatting.fixer (asked function "trailing-whitespace" 1)

end Specimen

/-- The documentation fixer and the formatting fixer make each a fix for one line. The stub is put above the
line and leaves it as it is, so what the second fix expects is there and occurs nowhere before; but the shifts
expect it where the stub is now. -/
theorem stub_makes_next_stale :
    let stub : Edit := ⟨0, 0, "/// TODO: document\n".toList⟩
    let trim : Edit := ⟨9, 11, []⟩
    let a := trim.anchored Specimen.function
    Specimen.both.map Fix.changes = [[stub.toChange "a.rs" Specimen.function], [trim.toChange "a.rs" Specimen.function]] ∧
      stub.stop ≤ a.start ∧
      find? (slice Specimen.function a.start a.stop) (stub.apply Specimen.function) = some (stub.carry a.start) ∧
      ((applyEach Memory.files "/ws" Specimen.both {}
        [(Path.components "/ws/a.rs", encodeText Specimen.function)]).1.map Attempt.outcome) =
        [.ok (), .error (.stale "a.rs")] := by
  decide +kernel

end Autofix
