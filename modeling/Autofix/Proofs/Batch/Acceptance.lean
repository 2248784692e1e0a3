import Autofix.Proofs.Apply.Next
import Autofix.Proofs.Batch.Generation
import Autofix.Proofs.Batch.Outcomes
import Autofix.Proofs.Fixer.Acceptance

/-! Fixes stand up to the coordinator. What a fixer that comes with the program has made is not lost when fixes are
made for issues, and it is not rejected when fixes are applied, neither before nor after. -/
namespace Autofix

/-- The failure is a judgement on the fix, and not what came of an attempt to apply it. -/
def Failure.isRejection : Failure → Bool
  | rejected _ => true
  | notApplied _ => false
  | disapproved _ => true

namespace Coordinator
open Autofix.Specimen
variable {c : Coordinator} {d : Disk} {o : Options} {fixer : Fixer} {r : FixRequest} {f : Fix}

/-- The coordinator asks the fixer about the issue, in the text that is on the disk. -/
structure Asks (c : Coordinator) (d : Disk) (fixer : Fixer) (r : FixRequest) : Prop where
  autoFix : r.issue.autoFix = true
  fixer : c.registry.fixerFor? r.issue = some fixer
  content : c.contentOn? d r.issue.filePath = some r.content
  language : r.language = Language.ofPath? r.issue.filePath
  placeholder : r.placeholder = c.placeholder

lemma Asks.eq (h : c.Asks d fixer r) :
    ⟨r.issue, r.content, Language.ofPath? r.issue.filePath, c.placeholder⟩ = r := by
  rw [← h.language, ← h.placeholder]

lemma isFile_of_contentOn? {path : String} {t : Text} (h : c.contentOn? d path = some t) :
    d.isFile (Path.join c.root path) = true := by
  obtain ⟨resolved, hresolved, hread⟩ := Option.bind_eq_some_iff.1 h
  cases hok : resolve c.root path with
  | error e =>
    rw [hok] at hresolved
    cases hresolved
  | ok place =>
    rw [hok] at hresolved
    obtain rfl := Option.some.inj hresolved
    obtain ⟨_, rfl⟩ := resolve_eq_ok.1 hok
    rw [Disk.isFile_iff]
    cases hentry : d.entry (Path.join c.root path) with
    | ok entry => exact ⟨_, _, rfl⟩
    | error e =>
      have hnone : d.readText (Path.join c.root path) = .error e := by
        simp [Disk.readText, Disk.readBytes, hentry, Except.map]
      rw [hnone] at hread
      cases hread

/-- A fix that stands up to validation is made unless it is not wanted. -/
lemma Asks.fixFor? (h : c.Asks d fixer r) (hmade : fixer.generate r = .ok (some f))
    (hcheck : Validation.check c.root d (some fixer) f = .ok ()) :
    c.fixFor? d o r.issue = if o.wants f then some f else none := by
  have hin : c.fixIn? d o fixer r.issue r.content = if o.wants f then some f else none := by
    rw [fixIn?, h.eq, hmade]
    simp [Except.toOption, hcheck, Except.toBool]
  rw [Coordinator.fixFor?, if_pos h.autoFix, h.fixer, h.content]
  exact hin

/-- A fix is rejected for what validation found, or for the verdict of its fixer. If both are in its favour, it is
not. -/
lemma not_isRejection_of_follows {env : Circumstances} {options : Options} {fixes : List Fix}
    {settled : List (Fix × Outcome)} (hcheck : Validation.check c.root d none f = .ok ())
    (happroves : c.approves f = true)
    (h : List.Forall₂ (Batch.Follows (c.batch env options (files env)).verdict) (c.checked d fixes) settled)
    {failure : Failure} (hmem : (f, .failed failure) ∈ settled) : failure.isRejection = false := by
  obtain ⟨x, hx, hfollows⟩ := Batch.exists_checked_of_follows h hmem
  generalize hsettled : (f, Outcome.failed failure) = s at hfollows
  cases hfollows with
  | rejected g e =>
    obtain ⟨rfl, _⟩ := Prod.mk.inj hsettled
    obtain ⟨g, _, hg⟩ := List.mem_map.1 hx
    split at hg
    · cases hg
    · next herror =>
      obtain ⟨rfl, _⟩ := Prod.mk.inj hg
      rw [hcheck] at herror
      cases herror
  | judged g =>
    obtain ⟨rfl, hverdict⟩ := Prod.mk.inj hsettled
    have happlied : (c.batch env options (files env)).verdict f = .applied := by
      simp [Batch.verdict, batch, happroves]
    rw [happlied] at hverdict
    cases hverdict
  | notApplied g e =>
    obtain ⟨_, hfailure⟩ := Prod.mk.inj hsettled
    obtain rfl := Outcome.failed.inj hfailure
    rfl
  | skipped g =>
    obtain ⟨_, hfailure⟩ := Prod.mk.inj hsettled
    cases hfailure

/-- What a fixer that comes with the program makes for an issue survives, by any parser whose nodes stand in the
source. The path of the issue is not blank, is written with slashes and leads nowhere outside the workspace. The fixer
itself accepts the fix, and validation finds nothing wrong with it wherever the file exists. Where fixes are made for
issues, the fix stands at the place of its issue unless it is not wanted. Where fixes are applied, the fix is not
reported as rejected, unless another fixer has taken the name of the one that made it. -/
theorem generated_fixes_survive (parser : Parser) (hparser : parser.IsSound) (fixer : Fixer) (r : FixRequest) (f : Fix)
    (hfixer : fixer ∈ Registry.builtin parser)
    (hblank : isBlankString r.issue.filePath = false) (hslashes : Path.normalize r.issue.filePath = r.issue.filePath)
    (hrelative : Path.isWorkspaceRelative r.issue.filePath = true) (hmade : fixer.generate r = .ok (some f)) :
    fixer.accepts f = true ∧
    (∀ root d, d.isFile (Path.join root r.issue.filePath) = true → Validation.check root d (some fixer) f = .ok ()) ∧
    (∀ c d o before after, Coordinator.Asks c d fixer r → c.generate d o (before ++ r.issue :: after) =
      c.generate d o before ++ (if o.wants f then [f] else []) ++ c.generate d o after) ∧
    ∀ (c : Coordinator) env options fixes w report, w.2.isFile (Path.join c.root r.issue.filePath) = true →
      (∀ g, c.registry.get? fixer.name = some g → g = fixer) →
      (c.apply env options fixes w).result = .ok report →
      ∃ settled, report = .ofOutcomes report.transactionId settled ∧ settled.map Prod.fst = fixes ∧
        ∀ failure, (f, .failed failure) ∈ settled → failure.isRejection = false := by
  have haccepts := Registry.builtin_accepts hparser hfixer hmade (by rw [hslashes, hblank])
  obtain ⟨edits, hoffers⟩ := Registry.builtin_offers hparser hfixer hmade
  have hvalid : ∀ root d, d.isFile (Path.join root r.issue.filePath) = true → ∀ judge : Option Fixer,
      (∀ g ∈ judge, g.accepts f = true) → Validation.check root d judge f = .ok () := fun root d hfile judge hjudge =>
    Validation.check_of_forall hoffers.changes_ne_nil hoffers.inRange
      (fun _ hc => hoffers.changeDefect?_eq_none hblank hslashes hrelative hfile hc) hjudge
  have hcheck : ∀ root d, d.isFile (Path.join root r.issue.filePath) = true →
      Validation.check root d (some fixer) f = .ok () := fun root d hfile =>
    hvalid root d hfile (some fixer) fun g hg => Option.some.inj hg ▸ haccepts
  refine ⟨haccepts, hcheck, fun c d o before after hasks => ?_, fun c env options fixes w report hfile hname h => ?_⟩
  · have hfix := hasks.fixFor? (o := o) hmade (hcheck c.root d (isFile_of_contentOn? hasks.content))
    rw [generate_eq_filterMap, generate_eq_filterMap, generate_eq_filterMap, List.filterMap_append,
      List.filterMap_cons, hfix, List.append_assoc]
    cases o.wants f <;> rfl
  · obtain ⟨settled, rfl, hfollows⟩ := apply_follows h
    have happroves : c.approves f = true := by
      rw [approves, hoffers.provider]
      split
      · next g hg => rw [hname g hg, haccepts]
      · exact hoffers.isWellFormed (by rw [hslashes, hblank])
    refine ⟨settled, rfl, ?_, fun failure hfailure => ?_⟩
    · rw [Batch.map_fst_of_follows hfollows, map_fst_checked]
    · exact not_isRejection_of_follows (hvalid c.root w.2 hfile none (fun _ hg => by cases hg)) happroves hfollows
        hfailure

namespace Specimen

/-- The end of a line with a carriage return, and a line of blanks. -/
def ragged : Text := "a \t\r\n \n".toList

def raggedRequest : FixRequest :=
  ⟨.create "1" "trailing-whitespace" .low "a.ts", ragged, some .typeScript, "TODO: document"⟩

def raggedDisk : Disk :=
  { nodes := [(["ws".toList], .directory),
      (["ws".toList, "a.ts".toList], .file ⟨encodeText ragged, Disk.permissionsOf 0o644, .ofParts 0 0⟩)] }

/-- A parser that knows the text, a name that stands alone. -/
def raggedParser : Parser := parserOf ragged (treeOf "program" ragged
  [{ kind := "expression_statement", start := 0, stop := 1,
     children := [{ kind := "identifier", start := 0, stop := 1 }] }])

lemma isSound_raggedParser : raggedParser.IsSound := isSound_parserOf (by decide +kernel)

def raggedProject : Coordinator := ofConfig raggedParser "/ws" {}

lemma asks_ragged : raggedProject.Asks raggedDisk Formatting.fixer raggedRequest where
  autoFix := rfl
  fixer := rfl
  content := by decide +kernel
  language := by decide +kernel
  placeholder := rfl

end Specimen

theorem generated_fixes_survive_ragged :
    ∃ f ∈ Specimen.made Formatting.fixer Specimen.raggedRequest, f.changes.length = 2 ∧
      Specimen.raggedProject.generate Specimen.raggedDisk {} [Specimen.raggedRequest.issue] = [f] ∧
      ∃ report, (Specimen.raggedProject.apply Specimen.hesitant {} [f] ([], Specimen.raggedDisk)).result = .ok report ∧
        ∃ settled, report = .ofOutcomes report.transactionId settled ∧ settled.map Prod.fst = [f] ∧
          ∀ failure, (f, .failed failure) ∈ settled → failure.isRejection = false := by
  have hmade : (Specimen.made Formatting.fixer Specimen.raggedRequest).map
      (fun f => (f.changes.length, ({} : Options).wants f)) = [(2, true)] := by decide +kernel
  obtain ⟨f, hf, hpair⟩ := List.map_eq_singleton_iff.1 hmade
  obtain ⟨hchanges, hwants⟩ := Prod.mk.inj hpair
  have hmem : f ∈ Specimen.made Formatting.fixer Specimen.raggedRequest := by
    rw [hf]
    exact List.mem_cons_self
  obtain ⟨_, _, hgenerate, happly⟩ := generated_fixes_survive Specimen.raggedParser
    Specimen.isSound_raggedParser Formatting.fixer Specimen.raggedRequest f (Registry.formatting_mem_builtin _)
    (by decide +kernel) (by decide +kernel) (by decide +kernel) (Specimen.mem_made hmem)
  have hlist := hgenerate Specimen.raggedProject Specimen.raggedDisk {} [] [] Specimen.asks_ragged
  rw [hwants] at hlist
  have hok : (Specimen.raggedProject.apply Specimen.hesitant {}
      (Specimen.made Formatting.fixer Specimen.raggedRequest) ([], Specimen.raggedDisk)).result.toBool = true := by
    decide +kernel
  rw [hf] at hok
  cases hreport : (Specimen.raggedProject.apply Specimen.hesitant {} [f] ([], Specimen.raggedDisk)).result with
  | error e =>
    rw [hreport] at hok
    cases hok
  | ok report =>
    refine ⟨f, hmem, hchanges, hlist, report, hreport, ?_⟩
    have hname : Specimen.raggedProject.registry.get? Formatting.fixer.name = some Formatting.fixer := rfl
    exact happly _ _ _ _ _ report (by decide +kernel) (fun g hg => Option.some.inj (hg.symm.trans hname)) hreport

end Coordinator
end Autofix
