import Autofix.Batch.Coordinator
import Autofix.Proofs.Number.Order
import Mathlib.Data.List.Basic

/-! Making fixes for issues. The coordinator remembers the texts it has read, but on a disk that stays as it
is a remembered text is the one on the disk, so every issue is answered as if it were the only one. -/
namespace Autofix

/-- The second options want at least as much: the same or more risk, the same or less confidence, the same
fixers or more of them. A list of fixers that is empty stands for all, so adding to it would take away. -/
structure Options.RelaxedTo (o o' : Options) : Prop where
  risk : o.maxRisk.rank ≤ o'.maxRisk.rank
  confidence : o'.minConfidence = o.minConfidence ∨
    o.minConfidence.value ≠ .nan ∧ o.minConfidence.lt o'.minConfidence = false
  categories : o'.categories = o.categories ∨ o.categories ≠ [] ∧ o.categories ⊆ o'.categories

theorem Options.RelaxedTo.wants {o o' : Options} (h : o.RelaxedTo o') {f : Fix} (hf : o.wants f = true) :
    o'.wants f = true := by
  simp only [Options.wants, Bool.and_eq_true, decide_eq_true_eq, Bool.not_eq_true', Bool.or_eq_true,
    List.isEmpty_iff, List.contains_iff_mem] at hf ⊢
  obtain ⟨⟨hrisk, hconfidence⟩, hcategories⟩ := hf
  refine ⟨⟨hrisk.trans h.risk, ?_⟩, ?_⟩
  · rcases h.confidence with heq | ⟨hnumber, hle⟩
    · rwa [heq]
    · rw [← Bool.not_eq_true]
      intro hlt
      rw [Confidence.lt, Binary.lt_of_lt_of_not_lt hnumber hlt hle] at hconfidence
      cases hconfidence
  · rcases h.categories with heq | ⟨hne, hsub⟩
    · rwa [heq]
    · exact .inr (hsub (hcategories.resolve_left hne))

namespace Coordinator
variable (c : Coordinator) (d : Disk) (o : Options)

/-- The text of an issue's file on the disk. -/
def contentOn? (path : String) : Option Text := do
  let resolved ← (resolve c.root path).toOption
  (d.readText resolved).toOption

/-- What is remembered is what stands on the disk. -/
def Remembers (seen : Contents) : Prop := ∀ path t, Assoc.get? path seen = some t → c.contentOn? d path = some t

/-- The fix for an issue, made from the text on the disk. -/
def fixFor? (issue : Issue) : Option Fix :=
  (if issue.autoFix then c.registry.fixerFor? issue else none).bind fun fixer =>
    (c.contentOn? d issue.filePath).bind fun t => c.fixIn? d o fixer issue t

variable {c d o}

lemma Remembers.nil : c.Remembers d [] := by simp [Remembers]

lemma Remembers.insert {seen : Contents} (h : c.Remembers d seen) {path : String} {t : Text}
    (ht : c.contentOn? d path = some t) : c.Remembers d (Assoc.insert path t seen) := by
  intro q u hu
  rw [Assoc.get?_insert] at hu
  split at hu
  · next hq => rw [hq, ht, Option.some.inj hu]
  · exact h q u hu

lemma Remembers.contentFor? {seen : Contents} (h : c.Remembers d seen) (path : String) :
    (c.contentFor? d seen path).map Prod.fst = c.contentOn? d path ∧
      ∀ t seen', c.contentFor? d seen path = some (t, seen') → c.Remembers d seen' := by
  unfold Coordinator.contentFor?
  split
  · next t ht =>
    refine ⟨(h path t ht).symm, fun u seen' hu => ?_⟩
    rw [← (Prod.mk.inj (Option.some.inj hu)).2]
    exact h
  · have hread : (do let resolved ← (resolve c.root path).toOption
                     let t ← (d.readText resolved).toOption
                     return (t, Assoc.insert path t seen) : Option (Text × Contents)) =
        (c.contentOn? d path).map fun t => (t, Assoc.insert path t seen) := by
      simp [contentOn?, Option.map_eq_bind, Option.bind_assoc]
    rw [hread]
    refine ⟨by simp [Function.comp_def], fun u seen' hu => ?_⟩
    obtain ⟨t, ht, hpair⟩ := Option.map_eq_some_iff.1 hu
    rw [← (Prod.mk.inj hpair).2]
    exact h.insert ht

/-- Whatever is remembered, the answer to each issue is the one from the disk. -/
theorem Remembers.generateFrom {seen : Contents} (h : c.Remembers d seen) (issues : List Issue) :
    c.generateFrom d o issues seen = issues.filterMap (c.fixFor? d o) := by
  induction issues generalizing seen with
  | nil => rfl
  | cons issue rest ih =>
    rw [Coordinator.generateFrom, List.filterMap_cons]
    cases hfixer : if issue.autoFix then c.registry.fixerFor? issue else none with
    | none =>
      have hfix : c.fixFor? d o issue = none := by rw [fixFor?, hfixer]; rfl
      rw [hfix]
      exact ih h
    | some fixer =>
      obtain ⟨hcontent, hseen⟩ := h.contentFor? issue.filePath
      cases ht : c.contentFor? d seen issue.filePath with
      | none =>
        have hfix : c.fixFor? d o issue = none := by rw [fixFor?, hfixer, ← hcontent, ht]; rfl
        rw [hfix]
        exact ih h
      | some answer =>
        obtain ⟨t, seen'⟩ := answer
        have hfix : c.fixFor? d o issue = c.fixIn? d o fixer issue t := by
          rw [fixFor?, hfixer, ← hcontent, ht]
          rfl
        dsimp only
        rw [ih (hseen t seen' ht), hfix]
        cases c.fixIn? d o fixer issue t <;> rfl

theorem generate_eq_filterMap (issues : List Issue) :
    c.generate d o issues = issues.filterMap (c.fixFor? d o) := Remembers.nil.generateFrom issues

lemma generate_singleton (issue : Issue) : c.generate d o [issue] = (c.fixFor? d o issue).toList := by
  rw [generate_eq_filterMap]
  cases h : c.fixFor? d o issue <;> simp [h]

lemma fixIn?_eq_some {fixer : Fixer} {issue : Issue} {t : Text} {f : Fix} :
    c.fixIn? d o fixer issue t = some f ↔
      fixer.generate ⟨issue, t, Language.ofPath? issue.filePath, c.placeholder⟩ = .ok (some f) ∧
        Validation.check c.root d (some fixer) f = .ok () ∧ o.wants f = true := by
  have hcheck : ∀ r : Except ValidationError Unit, r.toBool = true ↔ r = .ok () := by
    rintro (e | ⟨⟩) <;> simp [Except.toBool]
  unfold fixIn?
  rcases fixer.generate ⟨issue, t, Language.ofPath? issue.filePath, c.placeholder⟩ with e | (_ | g)
  · simp [Except.toOption]
  · simp [Except.toOption]
  · simp only [Except.toOption, Option.bind_eq_bind, Option.bind_some, Option.ite_none_right_eq_some,
      Bool.and_eq_true, hcheck, Except.ok.injEq, Option.some.injEq]
    constructor
    · rintro ⟨hg, rfl⟩
      exact ⟨rfl, hg⟩
    · rintro ⟨rfl, hg⟩
      exact ⟨hg, rfl⟩

lemma fixFor?_eq_some {issue : Issue} {f : Fix} :
    c.fixFor? d o issue = some f ↔ issue.autoFix = true ∧ ∃ fixer t, c.registry.fixerFor? issue = some fixer ∧
      c.contentOn? d issue.filePath = some t ∧ c.fixIn? d o fixer issue t = some f := by
  simp only [fixFor?, Option.bind_eq_some_iff, Option.ite_none_right_eq_some]
  constructor
  · rintro ⟨fixer, ⟨hauto, hfixer⟩, t, ht, hf⟩
    exact ⟨hauto, fixer, t, hfixer, ht, hf⟩
  · rintro ⟨hauto, fixer, t, hfixer, ht, hf⟩
    exact ⟨fixer, ⟨hauto, hfixer⟩, t, ht, hf⟩

lemma fixFor?_relaxed {o' : Options} (h : o.RelaxedTo o') {issue : Issue} {f : Fix}
    (hf : c.fixFor? d o issue = some f) : c.fixFor? d o' issue = some f := by
  rw [fixFor?_eq_some] at hf ⊢
  obtain ⟨hauto, fixer, t, hfixer, ht, hin⟩ := hf
  rw [fixIn?_eq_some] at hin
  exact ⟨hauto, fixer, t, hfixer, ht, fixIn?_eq_some.2 ⟨hin.1, hin.2.1, h.wants hin.2.2⟩⟩

lemma filterMap_sublist_filterMap {α β : Type} {f g : α → Option β} (h : ∀ a b, f a = some b → g a = some b)
    (l : List α) : (l.filterMap f).Sublist (l.filterMap g) := by
  induction l with
  | nil => simp
  | cons a l ih =>
    cases hf : f a with
    | none =>
      rw [List.filterMap_cons_none hf]
      cases hg : g a with
      | none => rwa [List.filterMap_cons_none hg]
      | some b =>
        rw [List.filterMap_cons_some hg]
        exact ih.cons b
    | some b =>
      rw [List.filterMap_cons_some hf, List.filterMap_cons_some (h a b hf)]
      exact ih.cons_cons b

/-- The fixes for some issues are those for each issue alone, one after another and at most one for each.
Each of them was made by the fixer of its issue from the text on the disk, and stands up to validation by
that fixer and to the options. With relaxed options all of them are made again, in the same order, with
others between them. -/
theorem generate_per_issue (c : Coordinator) (d : Disk) (o : Options) (issues : List Issue) :
    c.generate d o issues = issues.flatMap (fun issue => c.generate d o [issue]) ∧
    (∀ xs ys, c.generate d o (xs ++ ys) = c.generate d o xs ++ c.generate d o ys) ∧
    (∀ issue, (c.generate d o [issue]).length ≤ 1) ∧
    (∀ issue f, f ∈ c.generate d o [issue] → issue.autoFix = true ∧
      ∃ fixer t, c.registry.fixerFor? issue = some fixer ∧ c.contentOn? d issue.filePath = some t ∧
        fixer.generate ⟨issue, t, Language.ofPath? issue.filePath, c.placeholder⟩ = .ok (some f) ∧
        Validation.check c.root d (some fixer) f = .ok () ∧ o.wants f = true) ∧
    ∀ o', o.RelaxedTo o' → (c.generate d o issues).Sublist (c.generate d o' issues) := by
  refine ⟨?_, fun xs ys => ?_, fun issue => ?_, fun issue f hf => ?_, fun o' h => ?_⟩
  · simp only [generate_singleton]
    rw [generate_eq_filterMap, List.filterMap_eq_flatMap_toList]
  · simp only [generate_eq_filterMap, List.filterMap_append]
  · rw [generate_singleton]
    cases c.fixFor? d o issue <;> simp
  · rw [generate_singleton, Option.mem_toList, fixFor?_eq_some] at hf
    obtain ⟨hauto, fixer, t, hfixer, ht, hin⟩ := hf
    exact ⟨hauto, fixer, t, hfixer, ht, fixIn?_eq_some.1 hin⟩
  · rw [generate_eq_filterMap, generate_eq_filterMap]
    exact filterMap_sublist_filterMap (fun _ _ => fixFor?_relaxed h) issues

namespace Specimen

def shelf : Disk :=
  { nodes := [(["ws".toList], .directory),
      (["ws".toList, "a.ts".toList], .file ⟨encodeText "a".toList, Disk.permissionsOf 0o644, .ofParts 0 0⟩)] }

def rewriter (name : String) (risk : Risk) : Fixer where
  name := name
  types := [name]
  generate r := .ok (some ⟨name, r.issue.id, "", [⟨r.issue.filePath, "a", "b", none, none, none, none⟩],
    .hundredths 90, risk, name⟩)

def desk : Coordinator :=
  { root := "/ws", store := ⟨"/ws/backups"⟩, registry := .registerAll [rewriter "bold" .high, rewriter "calm" .low] }

/-- The file of the second issue is not there. -/
def issues : List Issue :=
  [.create "1" "calm" .low "a.ts", .create "2" "calm" .low "b.ts", .create "3" "bold" .low "a.ts"]

end Specimen

theorem generate_per_issue_more_risk :
    ({} : Options).RelaxedTo { maxRisk := .high } ∧
    (Specimen.desk.generate Specimen.shelf {} Specimen.issues).map Fix.issueId = ["1"] ∧
    (Specimen.desk.generate Specimen.shelf { maxRisk := .high } Specimen.issues).map Fix.issueId = ["1", "3"] ∧
    (Specimen.desk.generate Specimen.shelf {} Specimen.issues).Sublist
      (Specimen.desk.generate Specimen.shelf { maxRisk := .high } Specimen.issues) := by
  have hrelaxed : ({} : Options).RelaxedTo { maxRisk := .high } := ⟨by decide, .inl rfl, .inl rfl⟩
  obtain ⟨_, _, _, _, hmore⟩ := generate_per_issue Specimen.desk Specimen.shelf {} Specimen.issues
  exact ⟨hrelaxed, by decide +kernel, by decide +kernel, hmore _ hrelaxed⟩

end Coordinator
end Autofix
