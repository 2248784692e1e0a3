import Autofix.Apply.Changes
import Autofix.Proofs.Apply.Shift

/-! Fixes that were made for one text and are applied one after another land where they were meant, in
whatever order they come. -/
namespace Autofix
open Text Edit

/-- Access to one file that does not fail: it reads the text that the file has in a state, and writes
the text that the file has then. -/
structure Files.Keeps (files : Files σ) (path : String) (text : σ → Option Text) : Prop where
  read : ∀ {s t}, text s = some t → ∃ s', files.read path s = (.ok t, s') ∧ text s' = some t
  write : ∀ {s t} u, text s = some t → ∃ s', files.write path u s = (.ok (), s') ∧ text s' = some u

def Memory.text? (path : String) (m : Memory) : Option Text :=
  (Assoc.get? (Path.components path) m).bind fun bytes => (decodeText bytes).toOption

lemma Memory.keeps (path : String) : Memory.files.Keeps path (Memory.text? path) where
  read {m t} h := by
    obtain ⟨bytes, hget, htext⟩ := Option.bind_eq_some_iff.1 h
    refine ⟨m, ?_, h⟩
    cases hdecode : decodeText bytes with
    | error e => simp [hdecode, Except.toOption] at htext
    | ok u =>
      obtain rfl : u = t := by simpa [hdecode, Except.toOption] using htext
      simp only [Memory.files, hget, hdecode]
  write {m t} u _ := by
    refine ⟨_, rfl, ?_⟩
    simp only [Memory.text?, Assoc.get?_insert_self, Option.bind_some, decodeText_encodeText, Except.toOption]

/-- What came of a fix, with the states before and after it. -/
structure Attempt (σ : Type) where
  fix : Fix
  outcome : Except ApplyError Unit
  before : σ
  after : σ

/-- Fixes applied one after another with common line shifts, whatever came of those before: the attempts
and the last state. -/
def applyEach (files : Files σ) (root : String) : List Fix → LineShifts → σ → List (Attempt σ) × σ
  | [], _, s => ([], s)
  | f :: rest, shifts, s =>
      let (outcome, shifts, s') := f.apply files root shifts s
      let (attempts, last) := applyEach files root rest shifts s'
      (⟨f, outcome, s, s'⟩ :: attempts, last)

def Attempt.applied (attempts : List (Attempt σ)) : List Fix :=
  (attempts.filter fun a => a.outcome.isOk).map Attempt.fix

lemma map_fix_applyEach (files : Files σ) (root : String) (fixes : List Fix) (shifts : LineShifts) (s : σ) :
    (applyEach files root fixes shifts s).1.map Attempt.fix = fixes := by
  induction fixes generalizing shifts s with
  | nil => rfl
  | cons f rest ih => exact congrArg (f :: ·) (ih _ _)

section Change
variable {files : Files σ} {root place : String} {c : Change} {shifts : LineShifts} {s s₁ s₂ : σ} {current updated : Text}

lemma applyChange_of_stale (hplace : resolve root c.filePath = .ok place)
    (hread : files.read place s = (.ok current, s₁)) (hsubst : c.substitute? (shifts.expectedLine? c) current = none) :
    applyChange files root c shifts s = (.error (.stale c.filePath), shifts, s₁) := by
  unfold applyChange
  simp only [hplace, hread, hsubst]

lemma applyChange_of_write (hplace : resolve root c.filePath = .ok place)
    (hread : files.read place s = (.ok current, s₁))
    (hsubst : c.substitute? (shifts.expectedLine? c) current = some updated)
    (hwrite : files.write place updated s₁ = (.ok (), s₂)) :
    applyChange files root c shifts s = (.ok (), shifts.record c, s₂) := by
  unfold applyChange
  simp only [hplace, hread, hsubst, hwrite]

lemma apply_of_changes_eq {f : Fix} (h : f.changes = [c]) (files : Files σ) (root : String) (shifts : LineShifts) (s : σ) :
    f.apply files root shifts s = applyChange files root c shifts s := by
  rw [Fix.apply, h, applyChanges]
  rcases applyChange files root c shifts s with ⟨_ | _, _, _⟩
  · rfl
  · rfl

end Change

section Run
variable {files : Files σ} {root path place : String} {text : σ → Option Text} {t : Text} {applied : List Edit}
  {a : Edit} {shifts : LineShifts} {s : σ}

/-- One anchor more is replaced, or its change is stale and the text stays. -/
lemma applyChange_patch (hplace : resolve root (Path.normalize path) = .ok place) (hkeeps : files.Keeps place text)
    (hanchors : Anchors t (a :: applied)) (hshifts : shifts.Tracks path t applied)
    (hs : text s = some (patch t applied)) :
    ∃ s', (applyChange files root (a.substitution path t) shifts s =
          (.ok (), shifts.record (a.substitution path t), s') ∧ text s' = some (patch t (a :: applied))) ∨
      (applyChange files root (a.substitution path t) shifts s = (.error (.stale (Path.normalize path)), shifts, s') ∧
        text s' = some (patch t applied)) := by
  obtain ⟨s₁, hread, hs₁⟩ := hkeeps.read hs
  rcases substitute?_patch hshifts hanchors with hsubst | hsubst
  · exact ⟨s₁, .inr ⟨applyChange_of_stale hplace hread hsubst, hs₁⟩⟩
  · obtain ⟨s₂, hwrite, hs₂⟩ := hkeeps.write (patch t (a :: applied)) hs₁
    exact ⟨s₂, .inl ⟨applyChange_of_write hplace hread hsubst hwrite, hs₂⟩⟩

/-- Each fix that fails is stale and leaves the text as it was; what the others replace is replaced in the end.
The shifts track `applied`, the anchors that have been replaced so far. -/
lemma applyEach_patch {editOf : Fix → Edit} {fixes : List Fix}
    (hplace : resolve root (Path.normalize path) = .ok place) (hkeeps : files.Keeps place text)
    (hchange : ∀ f ∈ fixes, f.changes = [(editOf f).toChange path t])
    (hanchors : Anchors t (fixes.map (fun f => (editOf f).anchored t) ++ applied))
    (hshifts : shifts.Tracks path t applied) (hs : text s = some (patch t applied)) :
    (∀ attempt ∈ (applyEach files root fixes shifts s).1, ∀ e, attempt.outcome = .error e →
        e = .stale (Path.normalize path) ∧ text attempt.after = text attempt.before) ∧
      text (applyEach files root fixes shifts s).2 = some (patch t
        (((Attempt.applied (applyEach files root fixes shifts s).1).map fun f => (editOf f).anchored t).reverse ++
          applied)) := by
  induction fixes generalizing applied shifts s with
  | nil => exact ⟨fun _ h => (List.not_mem_nil h).elim, hs⟩
  | cons f rest ih =>
    rw [List.forall_mem_cons] at hchange
    rw [List.map_cons, List.cons_append] at hanchors
    have hf := apply_of_changes_eq (hchange.1.trans (by rw [toChange_eq])) files root shifts s
    have hone : Anchors t ((editOf f).anchored t :: applied) :=
      hanchors.sublist ((List.sublist_append_right _ _).cons_cons _)
    obtain ⟨s', ⟨happly, hs'⟩ | ⟨happly, hs'⟩⟩ := applyChange_patch hplace hkeeps hone hshifts hs
    · rw [happly] at hf
      have hrest := hanchors.perm List.perm_middle.symm
      obtain ⟨hfail, hlast⟩ := ih hchange.2 hrest (hshifts.record (hone.isAnchor _ List.mem_cons_self)) hs'
      simp only [applyEach, hf, Attempt.applied, List.filter_cons, Except.isOk, Except.toBool, if_true, List.map_cons,
        List.reverse_cons, List.append_assoc, List.cons_append, List.nil_append]
      refine ⟨List.forall_mem_cons.2 ⟨?_, hfail⟩, hlast⟩
      intro e he
      cases he
    · rw [happly] at hf
      have hrest := hanchors.sublist (List.sublist_cons_self _ _)
      obtain ⟨hfail, hlast⟩ := ih hchange.2 hrest hshifts hs'
      simp only [applyEach, hf, Attempt.applied, List.filter_cons, Except.isOk, Except.toBool]
      refine ⟨List.forall_mem_cons.2 ⟨?_, hfail⟩, hlast⟩
      intro e he
      cases he
      exact ⟨rfl, hs'.trans hs.symm⟩

lemma applied_sublist (files : Files σ) (root : String) (fixes : List Fix) (shifts : LineShifts) (s : σ) :
    (Attempt.applied (applyEach files root fixes shifts s).1).Sublist fixes := by
  have hsub := (List.filter_sublist (p := fun a : Attempt σ => a.outcome.isOk)
    (l := (applyEach files root fixes shifts s).1)).map Attempt.fix
  rwa [map_fix_applyEach] at hsub

lemma applied_of_all_ok {attempts : List (Attempt σ)} (h : ∀ attempt ∈ attempts, attempt.outcome = .ok ()) :
    Attempt.applied attempts = attempts.map Attempt.fix := by
  rw [Attempt.applied, List.filter_eq_self.2 fun attempt ha => by rw [h attempt ha]; rfl]

/-- From the text that the fixes were made for, exactly the anchors of the applied fixes are replaced. -/
lemma text_applyEach {editOf : Fix → Edit} {fixes : List Fix}
    (hplace : resolve root (Path.normalize path) = .ok place) (hkeeps : files.Keeps place text) (hs : text s = some t)
    (hchange : ∀ f ∈ fixes, f.changes = [(editOf f).toChange path t])
    (hanchors : Anchors t (fixes.map fun f => (editOf f).anchored t)) :
    text (applyEach files root fixes {} s).2 =
      some (patch t ((Attempt.applied (applyEach files root fixes {} s).1).map fun f => (editOf f).anchored t)) := by
  have happlied := hanchors.sublist ((applied_sublist files root fixes {} s).map _)
  have hrun := applyEach_patch hplace hkeeps hchange (by rwa [List.append_nil]) LineShifts.tracks_nil hs
  rw [hrun.2, List.append_nil, patch_perm happlied.scattered (List.reverse_perm _).symm]

end Run

/-- Fixes that were made for one text, with anchors that stand apart and replacements that keep line
starts, land where they were meant in any order: a fix that fails is stale and leaves the text as it was,
and in the end exactly the anchors of the other fixes are replaced. If all are applied, their order does
not matter. The line ends of the text and of all replacements, which are in memory together, can be
counted in a word. -/
theorem applyEach_lands (files : Files σ) (root path place : String) (text : σ → Option Text) (t : Text) (s : σ)
    (fixes : List Fix) (editOf : Fix → Edit) (hplace : resolve root (Path.normalize path) = .ok place)
    (hkeeps : files.Keeps place text) (ht : t ≠ []) (hs : text s = some t)
    (hchange : ∀ f ∈ fixes, f.changes = [(editOf f).toChange path t])
    (hrange : ∀ f ∈ fixes, (editOf f).start ≤ (editOf f).stop ∧ (editOf f).stop ≤ t.length)
    (hapart : fixes.Pairwise fun f g => ((editOf f).anchored t).Apart ((editOf g).anchored t))
    (hclosed : ∀ f ∈ fixes, ∀ c ∈ f.changes, c.expected.toList.getLast? = some '\n' → EndsLine c.replacement.toList)
    (hcount : newlines t + (fixes.map fun f => newlines ((editOf f).anchored t).replacement).sum < Json.maxWord) :
    (∀ attempt ∈ (applyEach files root fixes {} s).1, ∀ e, attempt.outcome = .error e →
        e = .stale (Path.normalize path) ∧ text attempt.after = text attempt.before) ∧
      text (applyEach files root fixes {} s).2 =
        some (patch t ((Attempt.applied (applyEach files root fixes {} s).1).map fun f => (editOf f).anchored t)) ∧
      ∀ (others : List Fix) (s' : σ), others.Perm fixes → text s' = some t →
        (∀ attempt ∈ (applyEach files root fixes {} s).1, attempt.outcome = .ok ()) →
        (∀ attempt ∈ (applyEach files root others {} s').1, attempt.outcome = .ok ()) →
        text (applyEach files root others {} s').2 = text (applyEach files root fixes {} s).2 := by
  have hanchors : Anchors t (fixes.map fun f => (editOf f).anchored t) := by
    refine ⟨?_, List.pairwise_map.2 hapart, ?_, ?_⟩
    · rintro _ hmem
      obtain ⟨f, hf, rfl⟩ := List.mem_map.1 hmem
      exact isAnchor_anchored ht (hrange f hf).1 (hrange f hf).2
    · rintro _ hmem
      obtain ⟨f, hf, rfl⟩ := List.mem_map.1 hmem
      have := hclosed f hf ((editOf f).toChange path t) (by rw [hchange f hf]; exact List.mem_singleton_self _)
      simpa [toChange_eq, substitution] using this
    · rwa [List.map_map]
  have htext := text_applyEach hplace hkeeps hs hchange hanchors
  refine ⟨?_, htext, fun others s' hperm hs' hall hall' => ?_⟩
  · exact (applyEach_patch hplace hkeeps hchange (by rwa [List.append_nil]) LineShifts.tracks_nil hs).1
  · have hothers := hanchors.perm (hperm.symm.map _)
    have htext' := text_applyEach hplace hkeeps hs' (fun f hf => hchange f (hperm.mem_iff.1 hf)) hothers
    rw [htext, htext', applied_of_all_ok hall, applied_of_all_ok hall', map_fix_applyEach, map_fix_applyEach]
    exact congrArg some (patch_perm hothers.scattered (hperm.map _))

namespace Specimen

/-- A line with a copy further down. -/
def draft : Text := "x\ny\nx\n".toList

/-- The edits of two fixes: the first line is deleted, and its copy is renamed. -/
def editOf (f : Fix) : Edit := if f.id = "1" then ⟨0, 2, []⟩ else ⟨4, 5, "z".toList⟩

/-- A fix that makes its edit. -/
def fixOf (id : String) (e : Edit) : Fix := ⟨id, "i", "", [e.toChange "a.ts" draft], .hundredths 90, .low, "naming"⟩

def pair : List Fix := [fixOf "1" ⟨0, 2, []⟩, fixOf "2" ⟨4, 5, "z".toList⟩]

def memory : Memory := [(Path.components "/ws/a.ts", encodeText draft)]

end Specimen

theorem applyEach_lands_pair :
    Memory.text? "/ws/a.ts" (applyEach Memory.files "/ws" Specimen.pair {} Specimen.memory).2 =
        some "y\nz\n".toList ∧
      Memory.text? "/ws/a.ts" (applyEach Memory.files "/ws" Specimen.pair.reverse {} Specimen.memory).2 =
        Memory.text? "/ws/a.ts" (applyEach Memory.files "/ws" Specimen.pair {} Specimen.memory).2 := by
  have hlands := applyEach_lands Memory.files "/ws" "a.ts" "/ws/a.ts" (Memory.text? "/ws/a.ts") Specimen.draft
    Specimen.memory Specimen.pair Specimen.editOf (by decide +kernel) (Memory.keeps _) (by decide +kernel)
    (by decide +kernel) (by decide +kernel) (by decide +kernel) (by decide +kernel) (by decide +kernel)
    (by decide +kernel)
  refine ⟨hlands.2.1.trans (by decide +kernel), ?_⟩
  exact hlands.2.2 _ _ (List.reverse_perm _) (by decide +kernel) (by decide +kernel) (by decide +kernel)

end Autofix
