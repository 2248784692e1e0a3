import Autofix.Cli.Report
import Autofix.Proofs.Batch.Outcomes
import Autofix.Proofs.Digits
import Autofix.Proofs.Text.LineNumber

/-! The table about a batch: one row for each fix and one for the batch. A row is one line unless an id, a name or a
path has a line end in it, and the row of a fix that failed says why the first fix of the same id failed. -/
namespace Autofix
open Text

section Breaks

/-- The number of line ends in a string. -/
def breaks (s : String) : Nat := newlines s.toList

@[simp] lemma breaks_append (s t : String) : breaks (s ++ t) = breaks s + breaks t := by
  rw [breaks, String.toList_append, newlines_append, breaks, breaks]

lemma newlines_intercalate {sep : Text} (h : newlines sep = 0) (ls : List Text) :
    newlines (sep.intercalate ls) = (ls.map newlines).sum := by
  induction ls with
  | nil => rfl
  | cons l rest ih =>
    cases rest with
    | nil => simp
    | cons l' rest =>
      rw [List.intercalate_cons_cons, newlines_append, newlines_append, h, ih]
      simp

lemma breaks_intercalate {sep : String} (h : breaks sep = 0) (l : List String) :
    breaks (sep.intercalate l) = (l.map breaks).sum := by
  rw [breaks, String.toList_intercalate, newlines_intercalate h, List.map_map]
  rfl

lemma newlines_of_isDigit {t : Text} (h : ∀ c ∈ t, c.isDigit = true) : newlines t = 0 := by
  rw [newlines, List.count_eq_zero]
  exact fun hmem => absurd (h _ hmem) (by decide)

lemma newlines_digitsOf (n : Nat) : newlines (digitsOf n) = 0 := newlines_of_isDigit fun _ => isDigit_of_mem_digitsOf

@[simp] lemma breaks_toString_nat (n : Nat) : breaks (toString n) = 0 := by
  rw [breaks, Nat.toString_eq_repr, Nat.toList_repr]
  exact newlines_digitsOf n

@[simp] lemma breaks_toString_bool (b : Bool) : breaks (toString b) = 0 := by cases b <;> decide

@[simp] lemma breaks_name (r : Risk) : breaks r.name = 0 := by cases r <;> decide

@[simp] lemma breaks_fixed (c : Confidence) : breaks c.fixed = 0 := by
  have hsign : ∀ negative, newlines (Confidence.sign negative) = 0 := by decide
  have hzeros : ∀ k, newlines (List.replicate k '0') = 0 := fun k => newlines_of_isDigit fun c hc => by
    rw [List.eq_of_mem_replicate hc]
    rfl
  rw [breaks, Confidence.fixed, Confidence.render, String.toList_ofList]
  split
  · rfl
  · rw [newlines_append, hsign]
    rfl
  · simp only [newlines_append, hsign, twoPlaces, newlines_digitsOf, hzeros]
    rfl

end Breaks

lemma Interleaves.perm {α : Type} {xs as bs cs : List α} (h : Interleaves xs as bs cs) : (as ++ bs ++ cs).Perm xs := by
  induction h with
  | nil => exact .nil
  | first x _ ih => exact ih.cons x
  | @second x _ as bs cs _ ih =>
    rw [List.append_assoc, List.cons_append]
    exact List.perm_middle.trans ((List.append_assoc as bs cs ▸ ih).cons x)
  | third x _ ih => exact List.perm_middle.trans (ih.cons x)

/-- The line ends in what a row gives of a fix as it is: its id, the name of its fixer and its paths. -/
def Fix.breaks (f : Fix) : Nat :=
  Autofix.breaks f.id + Autofix.breaks f.provider + (f.touchedFiles.map Autofix.breaks).sum

namespace Report
variable {label message : String} {f : Fix} {dryRun : Bool} {r : BatchResult} {fixes : List Fix}

@[simp] lemma breaks_singleLine (s : String) : breaks (singleLine s) = 0 := by
  rw [breaks, singleLine, String.toList_ofList, newlines_eq_zero]
  intro c hc
  obtain ⟨d, _, rfl⟩ := List.mem_map.1 hc
  grind [isNewline]

/-- The line about a fix: its columns with tabs between them. -/
def fixLine (label : String) (f : Fix) : Text :=
  ("\t".intercalate [label, f.id, f.provider, "risk=" ++ f.risk.name, "confidence=" ++ f.confidence.fixed,
    ",".intercalate f.touchedFiles, singleLine f.description]).toList

/-- The line about a fix that failed: a message is its last column. -/
def failedLine (f : Fix) (message : String) : Text := fixLine "failed" f ++ '\t' :: (singleLine message).toList

def summaryLine (dryRun : Bool) (r : BatchResult) : Text :=
  (s!"transaction={r.transactionId} total={r.summary.total} successful={r.summary.successful} " ++
    s!"failed={r.summary.failed} skipped={r.summary.skipped} rolled_back={r.summary.rolledBack} " ++
    s!"dry_run={dryRun}").toList

/-- The lines about a batch, with a message for each fix that failed. -/
def tableLines (dryRun : Bool) (r : BatchResult) (messages : List String) : List Text :=
  r.applied.map (fixLine (if dryRun then "would-apply" else "applied")) ++
    List.zipWith failedLine r.failed messages ++ r.skipped.map (fixLine "skipped") ++ [summaryLine dryRun r]

section Rows

lemma toList_fixRow_none (label : String) (f : Fix) : (fixRow label none f).toList = fixLine label f ++ ['\n'] := by
  rw [fixRow, row, String.toList_append]
  rfl

lemma toList_fixRow_some (message : String) (f : Fix) :
    (fixRow "failed" (some message) f).toList = failedLine f message ++ ['\n'] := by
  rw [failedLine, fixLine, fixRow, row, String.toList_append, String.toList_intercalate, String.toList_intercalate]
  simp [List.intercalate_cons_cons]

lemma toList_summaryRow (dryRun : Bool) (r : BatchResult) :
    (summaryRow dryRun r).toList = summaryLine dryRun r ++ ['\n'] := by
  unfold summaryRow summaryLine
  dsimp only
  simp only [String.toList_append, List.append_assoc]
  rfl

lemma newlines_fixLine (h : breaks label = 0) (f : Fix) : newlines (fixLine label f) = f.breaks := by
  have htab : breaks "\t" = 0 := by decide
  have hcomma : breaks "," = 0 := by decide
  have hrisk : breaks "risk=" = 0 := by decide
  have hconfidence : breaks "confidence=" = 0 := by decide
  have hsum : newlines (fixLine label f) = _ := breaks_intercalate htab _
  rw [hsum]
  simp [h, hrisk, hconfidence, breaks_intercalate hcomma, Fix.breaks]
  omega

lemma newlines_failedLine (f : Fix) (message : String) : newlines (failedLine f message) = f.breaks := by
  have hmessage : newlines (singleLine message).toList = 0 := breaks_singleLine message
  rw [failedLine, newlines_append, newlines_fixLine (by decide), newlines, List.count_cons_of_ne (by decide)]
  exact congrArg (f.breaks + ·) hmessage

lemma newlines_summaryLine (dryRun : Bool) (r : BatchResult) :
    newlines (summaryLine dryRun r) = breaks r.transactionId := by
  change breaks _ = _
  simp only [breaks_append, breaks_toString_nat, breaks_toString_bool]
  exact Nat.zero_add _

end Rows

section Table

/-- The message that the table gives for a failure: that of the first failure of the same fix. -/
def noted (errors : List FailureNote) (e : FailureNote) : String :=
  ((errors.find? fun first => first.fixId == e.fixId).getD e).message

lemma messageFor?_eq {errors : List FailureNote} {e : FailureNote} (he : e ∈ errors) (hid : e.fixId = f.id) :
    messageFor? errors f = some (noted errors e) := by
  have hfound : (errors.find? fun first => first.fixId == e.fixId).isSome :=
    List.find?_isSome.2 ⟨e, he, beq_self_eq_true _⟩
  obtain ⟨first, hfirst⟩ := Option.isSome_iff_exists.1 hfound
  rw [messageFor?, noted, ← hid, hfirst]
  rfl

lemma toList_failedRows {errors notes : List FailureNote} {failed : List Fix} (hsub : ∀ e ∈ notes, e ∈ errors)
    (hids : notes.map FailureNote.fixId = failed.map Fix.id) :
    (String.join (failed.map fun f => fixRow "failed" (messageFor? errors f) f)).toList =
      (List.zipWith failedLine failed (notes.map (noted errors))).flatMap (· ++ ['\n']) := by
  induction failed generalizing notes with
  | nil => simp
  | cons f rest ih =>
    cases notes with
    | nil => cases hids
    | cons e notes =>
      rw [List.forall_mem_cons] at hsub
      obtain ⟨hid, hrest⟩ := List.cons.inj hids
      rw [List.map_cons, String.join_cons, String.toList_append, ih hsub.2 hrest, messageFor?_eq hsub.1 hid,
        toList_fixRow_some]
      rfl

lemma toList_fixRows (label : String) (fixes : List Fix) :
    (String.join (fixes.map (fixRow label none))).toList = (fixes.map (fixLine label)).flatMap (· ++ ['\n']) := by
  induction fixes with
  | nil => simp
  | cons f rest ih =>
    rw [List.map_cons, String.join_cons, String.toList_append, ih, toList_fixRow_none]
    rfl

/-- The table is made of a row for each fix and one for the batch. -/
lemma toList_resultTable (h : r.Accounts fixes) (dryRun : Bool) :
    (resultTable dryRun r).toList =
      (tableLines dryRun r (r.errors.map (noted r.errors))).flatMap (· ++ ['\n']) := by
  rw [resultTable, String.toList_append, String.toList_append, String.toList_append, toList_fixRows, toList_fixRows,
    toList_failedRows (fun _ he => he) h.errors, toList_summaryRow, tableLines, List.flatMap_append,
    List.flatMap_append, List.flatMap_append, List.flatMap_singleton]

lemma length_tableLines (h : r.Accounts fixes) (dryRun : Bool) {messages : List String}
    (hlength : messages.length = r.errors.length) : (tableLines dryRun r messages).length = fixes.length + 1 := by
  have herrors := congrArg List.length h.errors
  have hfixes := h.interleaves.perm.length_eq
  simp only [List.length_map] at herrors
  simp only [List.length_append] at hfixes
  simp only [tableLines, List.length_append, List.length_map, List.length_zipWith, List.length_singleton]
  omega

lemma newlines_zipWith_failedLine {failed : List Fix} {messages : List String}
    (hlength : messages.length = failed.length) :
    (List.zipWith failedLine failed messages).map newlines = failed.map Fix.breaks := by
  induction failed generalizing messages with
  | nil => rfl
  | cons f rest ih =>
    cases messages with
    | nil => cases hlength
    | cons m messages =>
      rw [List.zipWith_cons_cons, List.map_cons, List.map_cons, newlines_failedLine, ih (Nat.succ.inj hlength)]

lemma newlines_fixLines (hlabel : breaks label = 0) (fixes : List Fix) :
    (fixes.map (fixLine label)).map newlines = fixes.map Fix.breaks := by
  rw [List.map_map]
  refine List.map_congr_left fun f _ => ?_
  rw [Function.comp_apply, newlines_fixLine hlabel]

lemma sum_newlines_tableLines (h : r.Accounts fixes) (hid : breaks r.transactionId = 0) (dryRun : Bool)
    {messages : List String} (hlength : messages.length = r.errors.length) :
    ((tableLines dryRun r messages).map newlines).sum = (fixes.map Fix.breaks).sum := by
  have herrors := congrArg List.length h.errors
  have hlabel : breaks (if dryRun then "would-apply" else "applied") = 0 := by cases dryRun <;> decide
  have hskipped : breaks "skipped" = 0 := by decide
  simp only [List.length_map] at herrors
  rw [tableLines, List.map_append, List.map_append, List.map_append, newlines_fixLines hlabel,
    newlines_fixLines hskipped, newlines_zipWith_failedLine (hlength.trans herrors), List.map_singleton,
    newlines_summaryLine, hid, List.sum_append, List.sum_singleton, Nat.add_zero, ← List.map_append,
    ← List.map_append]
  exact (h.interleaves.perm.map _).sum_nat

lemma failedLine_inj {f : Fix} {m n : String} (h : failedLine f m = failedLine f n) : singleLine m = singleLine n :=
  String.toList_inj.1 (List.cons.inj (List.append_cancel_left h)).2

/-- Two tables of a batch are the same if their messages are, each on one line. -/
lemma tableLines_eq_iff {messages messages' : List String} (hlength : messages.length = r.failed.length)
    (hlength' : messages'.length = r.failed.length) :
    tableLines dryRun r messages = tableLines dryRun r messages' ↔
      messages.map singleLine = messages'.map singleLine := by
  rw [tableLines, tableLines, List.append_cancel_right_eq, List.append_cancel_right_eq, List.append_cancel_left_eq]
  generalize r.failed = failed at hlength hlength'
  induction failed generalizing messages messages' with
  | nil =>
    obtain rfl := List.length_eq_zero_iff.1 hlength
    obtain rfl := List.length_eq_zero_iff.1 hlength'
    simp
  | cons f rest ih =>
    obtain _ | ⟨m, messages⟩ := messages
    · cases hlength
    obtain _ | ⟨n, messages'⟩ := messages'
    · cases hlength'
    rw [List.zipWith_cons_cons, List.zipWith_cons_cons, List.cons.injEq, List.map_cons, List.map_cons, List.cons.injEq,
      ih (Nat.succ.inj hlength) (Nat.succ.inj hlength')]
    refine and_congr_left fun _ => ⟨failedLine_inj, fun h => ?_⟩
    rw [failedLine, h, failedLine]

/-- The messages of the table are those of the failures exactly if failures of one fix say the same. -/
lemma map_noted_eq_iff (errors : List FailureNote) :
    (errors.map (noted errors)).map singleLine = (errors.map FailureNote.message).map singleLine ↔
      ∀ e ∈ errors, ∀ e' ∈ errors, e.fixId = e'.fixId → singleLine e.message = singleLine e'.message := by
  have hnoted : ∀ e ∈ errors, ∃ first ∈ errors, first.fixId = e.fixId ∧ ∀ e' ∈ errors, e'.fixId = e.fixId →
      noted errors e' = first.message := fun e he => by
    obtain ⟨first, hfirst⟩ := Option.isSome_iff_exists.1
      (List.find?_isSome.2 ⟨e, he, beq_self_eq_true e.fixId⟩ :
        (errors.find? fun first => first.fixId == e.fixId).isSome)
    refine ⟨first, List.mem_of_find?_eq_some hfirst, ?_, fun e' _ hid => ?_⟩
    · simpa using List.find?_some hfirst
    · rw [noted, hid, hfirst]
      rfl
  rw [List.map_map, List.map_map, List.map_inj_left]
  constructor
  · intro h e he e' he' hid
    obtain ⟨first, _, _, hall⟩ := hnoted e he
    have hthis := h e he
    have hother := h e' he'
    simp only [Function.comp_apply, hall e he rfl] at hthis
    simp only [Function.comp_apply, hall e' he' hid.symm] at hother
    exact hthis.symm.trans hother
  · intro h e he
    obtain ⟨first, hmem, hid, hall⟩ := hnoted e he
    simp only [Function.comp_apply, hall e he rfl]
    exact h first hmem e he hid

lemma newlines_resultTable (h : r.Accounts fixes) (hid : breaks r.transactionId = 0) (dryRun : Bool) :
    newlines (resultTable dryRun r).toList = fixes.length + 1 + (fixes.map Fix.breaks).sum := by
  have hlength : (r.errors.map (noted r.errors)).length = r.errors.length := List.length_map _
  rw [toList_resultTable h, newlines_flatMap, length_tableLines h dryRun hlength,
    sum_newlines_tableLines h hid dryRun hlength]

/-- Without line ends inside of rows, the rows are the lines. -/
lemma lines_resultTable (h : r.Accounts fixes) (hid : breaks r.transactionId = 0)
    (hbreaks : ∀ f ∈ fixes, f.breaks = 0) (dryRun : Bool) :
    lines (resultTable dryRun r).toList = tableLines dryRun r (r.errors.map (noted r.errors)) ++ [[]] := by
  have hlength : (r.errors.map (noted r.errors)).length = r.errors.length := List.length_map _
  have hzero : ((tableLines dryRun r (r.errors.map (noted r.errors))).map newlines).sum = 0 := by
    rw [sum_newlines_tableLines h hid dryRun hlength, List.sum_eq_zero_iff_forall_eq_nat]
    exact List.forall_mem_map.2 hbreaks
  rw [toList_resultTable h, lines_flatMap]
  exact List.forall_mem_map.1 (List.sum_eq_zero_iff_forall_eq_nat.1 hzero)

/-- The lines of a table are the expected ones exactly if rows are lines and failures of one fix say the same. -/
lemma lines_resultTable_eq_iff (h : r.Accounts fixes) (hid : breaks r.transactionId = 0) (dryRun : Bool) :
    lines (resultTable dryRun r).toList = tableLines dryRun r (r.errors.map FailureNote.message) ++ [[]] ↔
      (∀ f ∈ fixes, f.breaks = 0) ∧
      ∀ e ∈ r.errors, ∀ e' ∈ r.errors, e.fixId = e'.fixId → singleLine e.message = singleLine e'.message := by
  have herrors : r.errors.length = r.failed.length := by
    simpa only [List.length_map] using congrArg List.length h.errors
  have hsame : tableLines dryRun r (r.errors.map (noted r.errors)) =
      tableLines dryRun r (r.errors.map FailureNote.message) ↔ _ :=
    (tableLines_eq_iff (by simpa using herrors) (by simpa using herrors)).trans (map_noted_eq_iff r.errors)
  constructor
  · intro hall
    have hlength := congrArg List.length hall
    rw [length_lines, newlines_resultTable h hid, List.length_append, length_tableLines h dryRun (List.length_map _),
      List.length_singleton] at hlength
    have hzero : (fixes.map Fix.breaks).sum = 0 := by omega
    have hbreaks := List.forall_mem_map.1 (List.sum_eq_zero_iff_forall_eq_nat.1 hzero)
    rw [lines_resultTable h hid hbreaks, List.append_cancel_right_eq] at hall
    exact ⟨hbreaks, hsame.1 hall⟩
  · rintro ⟨hbreaks, hmessages⟩
    rw [lines_resultTable h hid hbreaks, hsame.2 hmessages]

end Table

end Report

lemma breaks_of_isTransactionId {id : String} (h : SnapshotStore.isTransactionId id = true) : breaks id = 0 := by
  simp only [SnapshotStore.isTransactionId, Bool.and_eq_true, List.all_eq_true] at h
  rw [breaks, newlines, List.count_eq_zero]
  exact fun hmem => absurd (h.2 _ hmem) (by decide)

namespace Coordinator
open Report

/-- The table about a batch. Whatever the fixes, also if some are the same, it has a row for each fix that was applied,
for each that failed and for each that was skipped, in this order and each in the order of the report, and a row for
the batch; but the row of a fix that failed gives the message of the first failure with its id. The rows are lines
except for the line ends in the ids, names and paths of the fixes. So the lines are the expected ones, with the
message of each failure in the line of its fix, exactly if there are no such line ends and failures with one id
say the same. -/
theorem table_has_a_row_for_each_fix (c : Coordinator) (env : Circumstances) (options : Options) (fixes : List Fix)
    (w : World) (r : BatchResult) (dryRun : Bool) (hid : SnapshotStore.isTransactionId env.id = true)
    (h : (c.apply env options fixes w).result = .ok r) :
    (tableLines dryRun r (r.errors.map FailureNote.message)).length = fixes.length + 1 ∧
    (Report.batch .table dryRun (.ok r)).toList =
      (tableLines dryRun r (r.errors.map (noted r.errors))).flatMap (· ++ ['\n']) ∧
    newlines (Report.batch .table dryRun (.ok r)).toList = fixes.length + 1 + (fixes.map Fix.breaks).sum ∧
    (lines (Report.batch .table dryRun (.ok r)).toList =
        tableLines dryRun r (r.errors.map FailureNote.message) ++ [[]] ↔
      (∀ f ∈ fixes, f.breaks = 0) ∧
      ∀ e ∈ r.errors, ∀ e' ∈ r.errors, e.fixId = e'.fixId → singleLine e.message = singleLine e'.message) := by
  have haccounts := accounts_of_apply h
  have hflat : breaks r.transactionId = 0 := by
    obtain ⟨settled, rfl, _⟩ := apply_follows h
    exact breaks_of_isTransactionId hid
  exact ⟨length_tableLines haccounts dryRun (List.length_map _), toList_resultTable haccounts dryRun,
    newlines_resultTable haccounts hflat dryRun, lines_resultTable_eq_iff haccounts hflat dryRun⟩

namespace Specimen

def quiet : Circumstances := { fullDisk with plan := .none }

def bare : Options := { createBackup := false }

/-- A workspace with three files, one of which has a line end in its name. -/
def threeFiles : World :=
  let file (text : String) : Node := .file ⟨encodeText text.toList, Disk.permissionsOf 0o644, .ofParts 5 0⟩
  ([], { nodes := [(["ws".toList], .directory), (["ws".toList, "a.ts".toList], file "let a = 1;\n"),
    (["ws".toList, "b.ts".toList], file "let b = 2;\n"), (["ws".toList, "c\nd.ts".toList], file "let c = 3;\n")] })

/-- A fix whose first change can be made and whose second one cannot. -/
def halfway : Fix :=
  ⟨"1", "i", "", [.replace "a.ts" "let" "const", .replace "b.ts" "var" "const"], .hundredths 90, .low, "naming"⟩

def splitPath : Fix := ⟨"2", "i", "", [.replace "c\nd.ts" "let" "const"], .hundredths 90, .low, "naming"⟩

def stale (path : String) : String := s!"stale content in {path}: expected original text is no longer present"

end Specimen

/-- A fix that is given twice fails for two reasons, and both rows give the first one. -/
theorem table_has_a_row_for_each_fix_twice :
    SnapshotStore.isTransactionId Specimen.quiet.id = true ∧
    ∃ r, (Specimen.coordinator.apply Specimen.quiet Specimen.bare [Specimen.halfway, Specimen.halfway]
        Specimen.threeFiles).result = .ok r ∧
      r.errors = [⟨"1", Specimen.stale "b.ts"⟩, ⟨"1", Specimen.stale "a.ts"⟩] ∧
      (Report.batch .table false (.ok r)).toList =
        (tableLines false r [Specimen.stale "b.ts", Specimen.stale "b.ts"]).flatMap (· ++ ['\n']) ∧
      newlines (Report.batch .table false (.ok r)).toList = 3 ∧
      lines (Report.batch .table false (.ok r)).toList ≠
        tableLines false r [Specimen.stale "b.ts", Specimen.stale "a.ts"] ++ [[]] := by
  have hid : SnapshotStore.isTransactionId Specimen.quiet.id = true :=
    SnapshotStore.isTransactionId_randomId (List.replicate 16 7)
  have herrors : (Specimen.coordinator.apply Specimen.quiet Specimen.bare [Specimen.halfway, Specimen.halfway]
      Specimen.threeFiles).result.toOption.map BatchResult.errors =
        some [⟨"1", Specimen.stale "b.ts"⟩, ⟨"1", Specimen.stale "a.ts"⟩] := by decide +kernel
  cases h : (Specimen.coordinator.apply Specimen.quiet Specimen.bare [Specimen.halfway, Specimen.halfway]
      Specimen.threeFiles).result with
  | error e =>
    rw [h] at herrors
    cases herrors
  | ok r =>
    obtain ⟨_, htext, hcount, hlines⟩ := table_has_a_row_for_each_fix Specimen.coordinator Specimen.quiet
      Specimen.bare _ _ r false hid h
    rw [h] at herrors
    have herrors : r.errors = _ := Option.some.inj herrors
    rw [herrors] at htext hlines
    refine ⟨hid, r, rfl, herrors, htext, hcount.trans (by decide +kernel), fun hall => ?_⟩
    exact absurd ((hlines.1 hall).2 _ List.mem_cons_self _ (List.mem_cons_of_mem _ List.mem_cons_self) rfl)
      (by decide +kernel)

/-- The row of a fix is two lines if there is a line end in the name of its file. -/
theorem line_end_in_path_breaks_row :
    ∃ r, (Specimen.coordinator.apply Specimen.quiet Specimen.bare [Specimen.splitPath] Specimen.threeFiles).result = .ok r ∧
      r.applied = [Specimen.splitPath] ∧ r.errors = [] ∧
      newlines (Report.batch .table false (.ok r)).toList = 3 ∧
      lines (Report.batch .table false (.ok r)).toList ≠ tableLines false r [] ++ [[]] := by
  have hresult : (Specimen.coordinator.apply Specimen.quiet Specimen.bare [Specimen.splitPath] Specimen.threeFiles).result =
      .ok ⟨true, Specimen.quiet.id, [Specimen.splitPath], [], [], [], ⟨1, 1, 0, 0, 0⟩⟩ := by decide +kernel
  exact ⟨_, hresult, rfl, rfl, by decide +kernel, by decide +kernel⟩

end Coordinator
end Autofix
