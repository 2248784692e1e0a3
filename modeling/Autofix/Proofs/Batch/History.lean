import Autofix.Proofs.Batch.Outcomes

/-! The history of a coordinator: each call adds one transaction at its end, with the fixes of the call and
a status that tells how it ended, and all transactions before it stay as they were. -/
namespace Autofix

namespace Coordinator
variable {c : Coordinator}

/-- One call to apply fixes. What happened to the disk since the call before it is arbitrary. -/
structure Call where
  env : Circumstances
  options : Options
  fixes : List Fix
  meanwhile : World → World := id

/-- What calls leave that are made one after another. -/
def applyAll (c : Coordinator) : List Call → World → List Applied
  | [], _ => []
  | call :: rest, w =>
      let a := c.apply call.env call.options call.fixes (call.meanwhile w)
      a :: a.coordinator.applyAll rest a.world

/-- The id of the transaction that a result or an error speaks of. -/
def Applied.transactionId (a : Applied) : String :=
  match a.result with
  | .ok r => r.transactionId
  | .error e => e.transactionId

/-- The transaction tells which fixes the call was made with and how it ended. -/
structure Records (call : Call) (a : Applied) (t : Transaction) : Prop where
  id : t.id = call.env.id
  named : a.transactionId = t.id
  fixes : t.fixes = call.fixes
  terminal : t.status.isTerminal = true
  applied : t.status = .applied ↔ ∃ r, a.result = .ok r
  failed : t.status = .failed ↔ (∃ id e, a.result = .error (.backup id e)) ∨
    ∃ id count e, a.result = .error (.unrecovered id count e)
  rolledBack : t.status = .rolledBack ↔ ∃ id count e, a.result = .error (.rolledBack id count e)
  dryRun : call.options.dryRun = true → t.status = .applied ∧ t.backups = []

section Step
variable {call : Call} {t : Transaction}

lemma complete_records (hid : t.id = call.env.id) (hfixes : t.fixes = call.fixes)
    (hdry : call.options.dryRun = true → t.backups = []) {p : Progress World} {settled : List (Fix × Outcome)}
    (hreport : p.report.finish = .ofOutcomes call.env.id settled) :
    ∃ t', (c.complete t p).coordinator.history = c.history ++ [t'] ∧ Records call (c.complete t p) t' := by
  have hnamed : (c.complete t p).transactionId = t.id :=
    (congrArg BatchResult.transactionId hreport).trans hid.symm
  refine ⟨{ t with status := .applied }, rfl, hid, hnamed, hfixes, rfl, ?_, ?_, ?_, fun h => ⟨rfl, hdry h⟩⟩
  · simp [complete]
  · simp [complete]
  · simp [complete]

/-- Where files are brought back, the last status is not that of the abort. -/
lemma abort_records (hid : t.id = call.env.id) (hfixes : t.fixes = call.fixes)
    (hdry : call.options.dryRun = false) (e : ApplyError) (p : Progress World) :
    ∃ t', (c.abort call.env t e p).coordinator.history = c.history ++ [t'] ∧
      Records call (c.abort call.env t e p) t' := by
  have hreal : call.options.dryRun = true → ∀ q : Prop, q := by simp [hdry]
  unfold abort
  split
  · refine ⟨{ t with status := .failed }, rfl, hid, rfl, hfixes, rfl, ?_, ?_, ?_, fun h => hreal h _⟩
    · simp
    · simp
    · simp
  · refine ⟨{ t with status := .rolledBack }, rfl, hid, rfl, hfixes, rfl, ?_, ?_, ?_, fun h => hreal h _⟩
    · simp
    · simp
    · simp

lemma execute_records (hid : t.id = call.env.id) (hfixes : t.fixes = call.fixes)
    (hdry : call.options.dryRun = true → t.backups = []) (checked : List (Fix × Option ValidationError))
    (w : World) :
    ∃ t', (c.execute call.env call.options checked t w).coordinator.history = c.history ++ [t'] ∧
      Records call (c.execute call.env call.options checked t w) t' := by
  have hexec := c.execute_executes call.env call.options checked t w
  generalize c.execute call.env call.options checked t w = a at hexec ⊢
  cases hexec with
  | rehearsed hd =>
    obtain ⟨settled, hreport, _⟩ := Batch.finish_run rfl (Prod.ext (c.rehearse_ok call.env hd checked w) rfl)
    exact complete_records hid hfixes hdry hreport
  | completed _ hp =>
    obtain ⟨settled, hreport, _⟩ := Batch.finish_run rfl hp
    exact complete_records hid hfixes hdry hreport
  | aborted hd => exact abort_records hid hfixes hd _ _

/-- A call adds one transaction to the history, whatever becomes of it. -/
theorem apply_records (c : Coordinator) (call : Call) (w : World) :
    ∃ t, (c.apply call.env call.options call.fixes w).coordinator.history = c.history ++ [t] ∧
      Records call (c.apply call.env call.options call.fixes w) t := by
  have happly := c.apply_applies call.env call.options call.fixes w
  generalize c.apply call.env call.options call.fixes w = a at happly ⊢
  cases happly with
  | bare => exact execute_records rfl rfl (fun _ => rfl) _ _
  | saved _ hdry => exact execute_records rfl rfl (by simp [hdry]) _ _
  | unsaved _ hdry =>
    refine ⟨_, rfl, rfl, rfl, rfl, rfl, ?_, ?_, ?_, by simp [hdry]⟩
    · simp
    · simp
    · simp

end Step

section Run
variable {calls : List Call} {w : World}

lemma length_applyAll (c : Coordinator) (calls : List Call) (w : World) :
    (c.applyAll calls w).length = calls.length := by
  induction calls generalizing c w with
  | nil => rfl
  | cons call rest ih => simp [applyAll, ih]

/-- The history after each of some calls is the history before them all and one entry for each call so far. -/
theorem exists_entries (c : Coordinator) (calls : List Call) (w : World) :
    ∃ entries : List Transaction, entries.length = calls.length ∧ entries.map Transaction.id = calls.map (·.env.id) ∧
      ∀ i call a t, calls[i]? = some call → (c.applyAll calls w)[i]? = some a → entries[i]? = some t →
        a.coordinator.history = c.history ++ entries.take (i + 1) ∧ Records call a t := by
  induction calls generalizing c w with
  | nil => exact ⟨[], rfl, rfl, by simp⟩
  | cons call rest ih =>
    obtain ⟨t, hhistory, hrecords⟩ := c.apply_records call (call.meanwhile w)
    obtain ⟨entries, hlength, hids, hentries⟩ := ih
      (c.apply call.env call.options call.fixes (call.meanwhile w)).coordinator
      (c.apply call.env call.options call.fixes (call.meanwhile w)).world
    refine ⟨t :: entries, by simp [hlength], by simp [hids, hrecords.id], ?_⟩
    intro i call' a t' hcall ha ht
    cases i with
    | zero =>
      simp only [applyAll, List.getElem?_cons_zero, Option.some.injEq] at hcall ha ht
      subst hcall ha ht
      exact ⟨hhistory, hrecords⟩
    | succ i =>
      simp only [applyAll, List.getElem?_cons_succ] at hcall ha ht
      obtain ⟨hlater, hrec⟩ := hentries i call' a t' hcall ha ht
      refine ⟨?_, hrec⟩
      rw [hlater, hhistory, List.append_assoc, List.singleton_append, List.take_succ_cons]

lemma transaction?_eq_some (h : (c.history.map Transaction.id).Nodup) {t : Transaction} (ht : t ∈ c.history) :
    c.transaction? t.id = some t := by
  unfold transaction?
  generalize c.history = history at h ht
  induction history with
  | nil => cases ht
  | cons first rest ih =>
    rw [List.map_cons, List.nodup_cons] at h
    rw [List.find?_cons]
    rcases List.mem_cons.1 ht with rfl | ht
    · simp
    · have hne : first.id ≠ t.id := fun he => h.1 (he ▸ List.mem_map_of_mem ht)
      simp only [beq_eq_false_iff_ne.2 hne]
      exact ih h.2 ht

end Run

/-- Calls leave one transaction each in the history, in their order and after all that was there before, and
no call changes the transactions of earlier ones. Each holds the fixes of its call and is over: applied
exactly if the call gave a result, failed exactly if its backups failed or its files could not be brought
back, rolled back exactly if they were. A dry run is always applied and has no backups. If all ids differ,
the id in the result or the error of a call finds its transaction, then and after all later calls. -/
theorem applyAll_history (c : Coordinator) (calls : List Call) (w : World) :
    (c.applyAll calls w).length = calls.length ∧
    ∃ entries : List Transaction, entries.length = calls.length ∧
      ∀ i call a t, calls[i]? = some call → (c.applyAll calls w)[i]? = some a → entries[i]? = some t →
        a.coordinator.history = c.history ++ entries.take (i + 1) ∧ Records call a t ∧
        ((c.history.map Transaction.id ++ calls.map (·.env.id)).Nodup →
          ∀ j b, i ≤ j → (c.applyAll calls w)[j]? = some b →
            b.coordinator.transaction? a.transactionId = some t) := by
  obtain ⟨entries, hlength, hids, hentries⟩ := c.exists_entries calls w
  refine ⟨c.length_applyAll calls w, entries, hlength, ?_⟩
  intro i call a t hcall ha ht
  obtain ⟨hhistory, hrecords⟩ := hentries i call a t hcall ha ht
  refine ⟨hhistory, hrecords, ?_⟩
  intro hnodup j b hij hb
  obtain ⟨hj, _⟩ := List.getElem?_eq_some_iff.1 hb
  rw [c.length_applyAll calls w] at hj
  obtain ⟨hlater, _⟩ := hentries j calls[j] b (entries.get ⟨j, by omega⟩) (by simp) hb (by simp)
  have hmem : t ∈ b.coordinator.history := by
    rw [hlater]
    refine List.mem_append_right _ (List.mem_iff_getElem?.2 ⟨i, ?_⟩)
    rw [List.getElem?_take_of_lt (by omega), ht]
  have hdistinct : (b.coordinator.history.map Transaction.id).Nodup := by
    rw [hlater, List.map_append, List.map_take, hids]
    exact hnodup.sublist ((List.Sublist.refl _).append (List.take_sublist _ _))
  rw [hrecords.named]
  exact transaction?_eq_some hdistinct hmem

namespace Specimen

def call (seed : UInt8) (options : Options) (plan : FaultPlan) : Call :=
  { env := { fullDisk with id := Transaction.randomId (List.replicate 16 seed), plan }, options, fixes := renames }

/-- A dry run, a call that a full disk stops at its second change, one without backups that it stops at once,
and one that finds a file where the backups should go. -/
def calls : List Call :=
  [call 1 { dryRun := true } .none,
    call 2 {} fun past _ => if past.length = 4 then some ⟨.ofKind .storageFull, none⟩ else none,
    call 3 { createBackup := false } fun _ _ => some ⟨.ofKind .storageFull, none⟩,
    { call 4 {} .none with meanwhile := fun w =>
        (w.1, (w.2.remove "/ws/backups").put ["ws".toList, "backups".toList]
          (.file ⟨.empty, Disk.permissionsOf 0, .ofParts 5 0⟩)) }]

end Specimen

theorem applyAll_history_four_ends :
    ∃ entries : List Transaction,
      entries.map Transaction.status = [.applied, .rolledBack, .failed, .failed] ∧
      ∀ i a t, (Specimen.coordinator.applyAll Specimen.calls Specimen.world)[i]? = some a → entries[i]? = some t →
        a.coordinator.history = entries.take (i + 1) ∧ t.fixes = Specimen.renames ∧
          ∀ j b, i ≤ j → (Specimen.coordinator.applyAll Specimen.calls Specimen.world)[j]? = some b →
            b.coordinator.transaction? a.transactionId = some t := by
  obtain ⟨hlength, entries, hentries, hall⟩ :=
    applyAll_history Specimen.coordinator Specimen.calls Specimen.world
  have hnodup : (Specimen.calls.map (·.env.id)).Nodup := by decide +kernel
  have hstatus : (Specimen.coordinator.applyAll Specimen.calls Specimen.world)[3]?.map
      (fun a => a.coordinator.history.map Transaction.status) =
        some [.applied, .rolledBack, .failed, .failed] := by decide +kernel
  have hone : ∀ i a t, (Specimen.coordinator.applyAll Specimen.calls Specimen.world)[i]? = some a →
      entries[i]? = some t → a.coordinator.history = entries.take (i + 1) ∧ t.fixes = Specimen.renames ∧
        ∀ j b, i ≤ j → (Specimen.coordinator.applyAll Specimen.calls Specimen.world)[j]? = some b →
          b.coordinator.transaction? a.transactionId = some t := by
    intro i a t ha ht
    obtain ⟨hi, _⟩ := List.getElem?_eq_some_iff.1 ht
    rw [hentries] at hi
    obtain ⟨hhistory, hrecords, hfind⟩ := hall i Specimen.calls[i] a t (by simp) ha ht
    refine ⟨hhistory, ?_, hfind hnodup⟩
    rw [hrecords.fixes]
    have hsame : ∀ call ∈ Specimen.calls, call.fixes = Specimen.renames := by simp [Specimen.calls, Specimen.call]
    exact hsame _ (List.getElem_mem hi)
  refine ⟨entries, ?_, hone⟩
  obtain ⟨a, ha, hlast⟩ := Option.map_eq_some_iff.1 hstatus
  have h3 : 3 < entries.length := by
    rw [hentries]
    decide
  rw [(hone 3 a entries[3] ha (by simp [h3])).1, List.take_of_length_le (by rw [hentries]; decide)] at hlast
  exact hlast

end Coordinator
end Autofix
