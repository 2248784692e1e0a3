import Autofix.Proofs.Batch.Coverage
import Autofix.Proofs.Fixer.Balance
import Autofix.Proofs.Fixer.Edits

/-! Fixes stand up to the fixers that made them. A fixer judges by the two texts of each change, and those differ by
an edit that the fixer itself has chosen; so what it asks of the texts is asked of the edit. -/
namespace Autofix
open Text Edit

namespace Validation
variable {root : String} {d : Disk} {f : Fix}

lemma changesDefect?_of_forall {changes : List Change} (h : ∀ c ∈ changes, changeDefect? root d c = none)
    (index : Nat) : changesDefect? root d index changes = none := by
  induction changes generalizing index with
  | nil => rfl
  | cons c changes ih =>
    rw [List.forall_mem_cons] at h
    rw [changesDefect?, h.1]
    exact ih h.2 (index + 1)

/-- A fix has nothing wrong if its changes have not, and if its fixer accepts it. -/
lemma check_of_forall (hne : f.changes ≠ []) (hrange : f.confidence.inRange = true)
    (hchanges : ∀ c ∈ f.changes, changeDefect? root d c = none) {fixer : Option Fixer}
    (haccepts : ∀ g ∈ fixer, g.accepts f = true) : check root d fixer f = .ok () := by
  have hsome : f.changes.isEmpty = false := by simpa using hne
  have hdefect : defect? root d f = none := by simp [defect?, hsome, hrange, changesDefect?_of_forall hchanges]
  cases fixer with
  | none => simp [check, hdefect]
  | some g => simp [check, hdefect, haccepts g rfl]

end Validation

section Offers
variable {r : FixRequest} {f : Fix} {fixer : String} {edits : List Edit}

lemma Fix.Offers.eq_of_mem (h : f.Offers fixer r edits) {c : Change} (hc : c ∈ f.changes) :
    c.filePath = Path.normalize r.issue.filePath ∧ c.expected ≠ c.replacement ∧
      ∃ e ∈ edits, c = e.toChange r.issue.filePath r.content := by
  rw [h.makesEdits] at hc
  obtain ⟨e, he, rfl⟩ := List.mem_map.1 hc
  exact ⟨rfl, expected_ne_replacement _ (h.fits e he) (h.alters e he), e, he, rfl⟩

lemma Fix.Offers.changes_ne_nil (h : f.Offers fixer r edits) : f.changes ≠ [] := by
  rw [h.makesEdits]
  exact mt List.map_eq_nil_iff.1 h.nonempty

lemma Fix.Offers.isWellFormed (h : f.Offers fixer r edits)
    (hpath : isBlankString (Path.normalize r.issue.filePath) = false) : f.isWellFormed = true := by
  simp only [Fix.isWellFormed, Bool.and_eq_true, List.all_eq_true, Bool.not_eq_true', bne_iff_ne]
  refine ⟨by simpa using h.changes_ne_nil, fun c hc => ?_⟩
  obtain ⟨hplace, hne, _⟩ := h.eq_of_mem hc
  exact ⟨hplace ▸ hpath, hne⟩

lemma Fix.Offers.changeDefect?_eq_none (h : f.Offers fixer r edits) {root : String} {d : Disk}
    (hpath : isBlankString r.issue.filePath = false) (hslashes : Path.normalize r.issue.filePath = r.issue.filePath)
    (hrelative : Path.isWorkspaceRelative r.issue.filePath = true)
    (hfile : d.isFile (Path.join root r.issue.filePath) = true) {c : Change} (hc : c ∈ f.changes) :
    Validation.changeDefect? root d c = none := by
  obtain ⟨hplace, hne, _⟩ := h.eq_of_mem hc
  simp [Validation.changeDefect?, hplace, hslashes, hpath, hrelative, hfile, hne]

/-- A fixer that asks for the same of the two texts of each change accepts what it offers, if the texts of every
change that it makes are alike in this respect. -/
lemma Fix.Offers.all_eq {α : Type} [BEq α] [LawfulBEq α] {view : Text → α} (h : f.Offers fixer r edits)
    (hview : ∀ e ∈ edits, view (e.toChange r.issue.filePath r.content).expected.toList =
      view (e.toChange r.issue.filePath r.content).replacement.toList) :
    f.changes.all (fun c => view c.expected.toList == view c.replacement.toList) = true := by
  refine List.all_eq_true.2 fun c hc => ?_
  obtain ⟨_, _, e, he, rfl⟩ := h.eq_of_mem hc
  exact beq_iff_eq.2 (hview e he)

namespace Refactoring

/-- Keywords hold no brackets. -/
lemma bracketBalance_keyword {type : String} {rule : Rule} (h : rule? type = some rule) :
    bracketBalance rule.keyword.toList = bracketBalance rule.replacement.toList := by
  rcases rule?_cases h with rfl | rfl <;> decide

end Refactoring

/-- The fixers that come with the program accept the fixes that they make. -/
theorem Registry.builtin_accepts {parser : Parser} (hparser : parser.IsSound) {fixer : Fixer}
    (hfixer : fixer ∈ builtin parser) (h : fixer.generate r = .ok (some f))
    (hpath : isBlankString (Path.normalize r.issue.filePath) = false) : fixer.accepts f = true := by
  simp only [builtin, List.mem_cons, List.not_mem_nil, or_false] at hfixer
  rcases hfixer with rfl | rfl | rfl | rfl
  · obtain ⟨edits, hoffers, hspaces⟩ := Formatting.offers_of_generate (Except.ok.inj h)
    refine Bool.and_eq_true_iff.2 ⟨hoffers.isWellFormed hpath, hoffers.all_eq fun e he => ?_⟩
    exact (hspaces e he).words_toChange _ (hoffers.fits e he)
  · obtain ⟨edits, hoffers⟩ := Imports.offers_of_generate hparser h
    exact hoffers.isWellFormed hpath
  · obtain ⟨edits, hoffers⟩ := Documentation.offers_of_generate h
    exact hoffers.isWellFormed hpath
  · obtain ⟨e, hoffers, _, rule, hrule, hold, hnew⟩ := Refactoring.offers_of_generate hparser h
    refine Bool.and_eq_true_iff.2 ⟨hoffers.isWellFormed hpath, hoffers.all_eq fun g hg => ?_⟩
    obtain rfl := List.mem_singleton.1 hg
    obtain ⟨front, back, _, hexpected, hreplacement⟩ := toChange_texts r.issue.filePath (hoffers.fits g hg)
    rw [hexpected, hreplacement, hold, hnew]
    simp only [Refactoring.bracketBalance_append, Refactoring.bracketBalance_keyword hrule]

end Offers
end Autofix
