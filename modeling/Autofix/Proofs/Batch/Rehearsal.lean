import Autofix.Proofs.Batch.Outcomes

/-! Rehearsals: a dry run comes to the same outcomes as a run on the disk, and the overlay that it leaves
behind shows what the files will hold. -/
namespace Autofix

/-- The bytes at a place once an overlay is laid over a disk. -/
def Overlay.laidOver (o : Overlay) (d : Disk) (p : Place) : Option ByteArray :=
  match o.find? fun entry => d.placeAt entry.1 == p with
  | some (_, t) => some (encodeText t)
  | none => (d.file? p).map FileEntry.content

namespace Overlay
variable {o : Overlay} {d : Disk} {k : List Path.Component}

lemma laidOver_nil (d : Disk) (p : Place) : laidOver [] d p = (d.file? p).map FileEntry.content := rfl

lemma laidOver_cons (l : List Path.Component) (t : Text) (o : Overlay) (d : Disk) (p : Place) :
    laidOver ((l, t) :: o) d p = if d.placeAt l = p then some (encodeText t) else laidOver o d p := by
  unfold laidOver
  by_cases h : d.placeAt l = p <;> simp [h]

lemma laidOver_placeAt (hk : ∀ entry ∈ o, d.placeAt entry.1 = d.placeAt k → entry.1 = k) :
    laidOver o d (d.placeAt k) = ((Assoc.get? k o).map encodeText).or ((d.file? (d.placeAt k)).map FileEntry.content) := by
  induction o with
  | nil => simp [laidOver_nil]
  | cons entry o ih =>
    obtain ⟨l, t⟩ := entry
    rw [List.forall_mem_cons] at hk
    rw [laidOver_cons, Assoc.get?]
    by_cases hl : k = l
    · simp [hl]
    · have hne : d.placeAt l ≠ d.placeAt k := fun h => hl (hk.1 h).symm
      rw [if_neg hne, if_neg hl, ih hk.2]

lemma laidOver_insert_of_ne (t : Text) {p : Place} (hp : p ≠ d.placeAt k) :
    laidOver (Assoc.insert k t o) d p = laidOver o d p := by
  induction o with
  | nil => rw [Assoc.insert, laidOver_cons, if_neg hp.symm]
  | cons entry o ih =>
    obtain ⟨l, u⟩ := entry
    rw [Assoc.insert]
    by_cases hl : k = l
    · subst hl
      rw [if_pos rfl, laidOver_cons, laidOver_cons, if_neg hp.symm, if_neg hp.symm]
    · rw [if_neg hl, laidOver_cons, laidOver_cons, ih]

lemma mem_insert {t : Text} {entry : List Path.Component × Text} (h : entry ∈ Assoc.insert k t o) :
    entry.1 = k ∨ entry ∈ o := by
  induction o with
  | nil => exact .inl (by rw [List.mem_singleton.1 h])
  | cons first o ih =>
    obtain ⟨l, u⟩ := first
    rw [Assoc.insert] at h
    split at h
    · next hl =>
      rcases List.mem_cons.1 h with rfl | h
      · exact .inl hl.symm
      · exact .inr (List.mem_cons_of_mem _ h)
    · rcases List.mem_cons.1 h with rfl | h
      · exact .inr List.mem_cons_self
      · rcases ih h with h | h
        · exact .inl h
        · exact .inr (List.mem_cons_of_mem _ h)

lemma mem_of_get? {t : Text} (h : Assoc.get? k o = some t) : (k, t) ∈ o := by
  induction o with
  | nil => cases h
  | cons entry o ih =>
    obtain ⟨l, u⟩ := entry
    rw [Assoc.get?] at h
    split at h
    · next hl =>
      cases h
      rw [hl]
      exact List.mem_cons_self
    · exact List.mem_cons_of_mem _ (ih h)

/-- A text that is put into an overlay shows at its place alone. -/
theorem laidOver_insert (t : Text) (hk : ∀ entry ∈ o, d.placeAt entry.1 = d.placeAt k → entry.1 = k) (p : Place) :
    laidOver (Assoc.insert k t o) d p = if p = d.placeAt k then some (encodeText t) else laidOver o d p := by
  split
  · next hp =>
    rw [hp, laidOver_placeAt, Assoc.get?_insert_self]
    · rfl
    · intro entry hentry hplace
      rcases mem_insert hentry with h | h
      · exact h
      · exact hk entry h hplace
  · next hp => exact laidOver_insert_of_ne t hp

end Overlay

section Layered
variable {σ : Type} {files : Files σ} {path : String} {s : Overlay × σ}

lemma Files.layered_read_of_some {t : Text} (h : Assoc.get? (Path.components path) s.1 = some t) :
    files.layered.read path s = (.ok t, s) := by
  simp [layered, h]

lemma Files.layered_read_of_none (h : Assoc.get? (Path.components path) s.1 = none) :
    files.layered.read path s = ((files.read path s.2).1, s.1, (files.read path s.2).2) := by
  simp [layered, h]

end Layered

namespace FaultPlan

/-- Reads fail only because there is no file or no text, and writes do not fail at all. -/
structure IsMild (plan : FaultPlan) : Prop where
  read : ∀ past path fault, plan past (.read path) = some fault →
    fault.error.kind = .notFound ∨ fault.error.kind = .invalidData
  write : ∀ past path, plan past (.write path) = .none

/-- Whether a file can be read does not depend on what was accessed before. -/
def IsSteady (plan : FaultPlan) : Prop :=
  ∀ past past' path path', Path.components path = Path.components path' →
    plan past (.read path) = plan past' (.read path')

end FaultPlan

/-- A path below a workspace that leads to a file at a place outside `T`. -/
structure IsSource (root : String) (d : Disk) (T : Place → Prop) (path : String) : Prop where
  relative : ∃ name, Path.isWorkspaceRelative name = true ∧ path = Path.join root name
  entry : ∃ p e, d.entry path = .ok (p, e) ∧ ¬ T p

/-- The overlay of a dry run on the disk `d` shows what the files of the real run hold, places in `T` aside,
and only files that can be read are in it. -/
structure Rehearses (plan : FaultPlan) (root : String) (d : Disk) (T : Place → Prop) (s : Overlay × World)
    (w : World) : Prop where
  disk : s.2.2 = d
  evolves : d.Evolves w.2
  contents : ∀ p, ¬ T p → (w.2.file? p).map FileEntry.content = Overlay.laidOver s.1 d p
  keys : ∀ entry ∈ s.1, ∃ path, IsSource root d T path ∧ Path.components path = entry.1 ∧
    ∀ past, plan past (.read path) = none

namespace Rehearses
variable {plan : FaultPlan} {root : String} {d : Disk} {T : Place → Prop} {s : Overlay × World} {w : World}
  {path : String}

/-- Two entries for the same place are the same. -/
lemma key_eq (h : Rehearses plan root d T s w) (hroot : root ≠ "") (hpath : IsSource root d T path) :
    ∀ entry ∈ s.1, d.placeAt entry.1 = d.placeAt (Path.components path) → entry.1 = Path.components path := by
  intro entry hentry hplace
  obtain ⟨other, hother, hkey, _⟩ := h.keys entry hentry
  obtain ⟨a, ha, rfl⟩ := hpath.relative
  obtain ⟨b, hb, rfl⟩ := hother.relative
  rw [← hkey] at hplace ⊢
  exact Disk.components_eq_of_placeOf_eq hroot hb ha hplace

lemma laidOver_eq (h : Rehearses plan root d T s w) (hroot : root ≠ "") (hpath : IsSource root d T path)
    {p : Place} {e : FileEntry} (he : d.entry path = .ok (p, e)) :
    Overlay.laidOver s.1 d p = some (((Assoc.get? (Path.components path) s.1).map encodeText).getD e.content) := by
  obtain rfl := Disk.entry_placeOf he
  rw [Disk.placeOf, Overlay.laidOver_placeAt (h.key_eq hroot hpath)]
  have hfile : d.file? (d.placeAt (Path.components path)) = some e := (Disk.entry_eq_ok.1 he).2
  rw [hfile]
  cases Assoc.get? (Path.components path) s.1 <;> rfl

/-- The text of a file in the real run is the one in the overlay, or else the one on the disk of the dry
run. -/
lemma readText (h : Rehearses plan root d T s w) (hroot : root ≠ "") (hpath : IsSource root d T path) :
    w.2.readText path = (Assoc.get? (Path.components path) s.1).elim (d.readText path) .ok := by
  obtain ⟨p, e, he, hp⟩ := hpath.entry
  obtain ⟨e', he'⟩ := h.evolves.entry he
  have hcontent := h.contents p hp
  rw [h.laidOver_eq hroot hpath he, (Disk.entry_eq_ok.1 he').2] at hcontent
  have hbytes : e'.content = ((Assoc.get? (Path.components path) s.1).map encodeText).getD e.content := by
    simpa using hcontent
  rw [Disk.readText_of_entry he', Disk.readText_of_entry he, hbytes]
  cases Assoc.get? (Path.components path) s.1 with
  | none => rfl
  | some t => exact decodeText_encodeText t

lemma readable (h : Rehearses plan root d T s w) (hsteady : plan.IsSteady) {t : Text}
    (ht : Assoc.get? (Path.components path) s.1 = some t) (past : List Access) : plan past (.read path) = none := by
  obtain ⟨other, _, hkey, hplan⟩ := h.keys _ (Overlay.mem_of_get? ht)
  rw [← hplan past]
  exact hsteady past past path other hkey.symm

lemma log (h : Rehearses plan root d T s w) (past past' : List Access) :
    Rehearses plan root d T (s.1, past, s.2.2) (past', w.2) :=
  ⟨h.disk, h.evolves, h.contents, h.keys⟩

end Rehearses

namespace Coordinator
variable {dry real : Circumstances} {root : String} {d : Disk} {T : Place → Prop}

/-- What can be read over the overlay can be read from the live files: a file in the overlay could be read
before, and so it can be read again; any other is read on both disks. -/
lemma layered_read (hroot : root ≠ "") (hplan : real.plan = dry.plan) (hsteady : dry.plan.IsSteady) {path : String}
    {s : Overlay × World} {w : World} (hpath : IsSource root d T path) (hR : Rehearses dry.plan root d T s w) :
    ((files dry).layered.read path s).1 = ((files real).read path w).1 ∧
      Rehearses dry.plan root d T ((files dry).layered.read path s).2 ((files real).read path w).2 ∧
      ∀ current, ((files dry).layered.read path s).1 = .ok current → ∀ past, dry.plan past (.read path) = none := by
  have htext := hR.readText hroot hpath
  cases hget : Assoc.get? (Path.components path) s.1 with
  | some t =>
    rw [hget] at htext
    have hreadable := hR.readable hsteady hget
    rw [Files.layered_read_of_some hget, files_read_of_none (by rw [hplan, hreadable])]
    exact ⟨htext.symm, hR.log _ _, fun _ _ => hreadable⟩
  | none =>
    rw [hget] at htext
    have hsame := hsteady s.2.1 w.1 path path rfl
    rw [Files.layered_read_of_none hget]
    cases hfault : dry.plan w.1 (.read path) with
    | some fault =>
      rw [files_read_of_some (hsame.trans hfault), files_read_of_some (by rw [hplan, hfault])]
      exact ⟨rfl, hR.log _ _, nofun⟩
    | none =>
      rw [files_read_of_none (hsame.trans hfault), files_read_of_none (by rw [hplan, hfault])]
      refine ⟨?_, hR.log _ _, fun _ _ past => ?_⟩
      · rw [hR.disk]
        exact htext.symm
      · rw [hsteady past w.1 path path rfl, hfault]

lemma layered_write (hroot : root ≠ "") (hplan : real.plan = dry.plan) (hmild : dry.plan.IsMild) {path : String}
    {s : Overlay × World} {w : World} (hpath : IsSource root d T path) (hR : Rehearses dry.plan root d T s w)
    (hreadable : ∀ past, dry.plan past (.read path) = none) (t : Text) :
    ((files dry).layered.write path t s).1 = ((files real).write path t w).1 ∧
      Rehearses dry.plan root d T ((files dry).layered.write path t s).2 ((files real).write path t w).2 := by
  obtain ⟨p, e, he, hp⟩ := hpath.entry
  obtain ⟨e', he'⟩ := hR.evolves.entry he
  obtain ⟨d', hd', hset⟩ := Disk.write_of_entry he' real.now (encodeText t)
  have hplace : p = d.placeAt (Path.components path) := Disk.entry_placeOf he
  rw [files_write_of_none (by rw [hplan, hmild.write]), hd']
  refine ⟨rfl, hR.disk, hR.evolves.trans hset.evolves, fun q hq => ?_, fun entry hentry => ?_⟩
  · refine Eq.trans ?_ (Overlay.laidOver_insert t (hR.key_eq hroot hpath) q).symm
    dsimp only
    by_cases hqp : q = p
    · rw [if_pos (hqp.trans hplace), hqp, hset.file]
      rfl
    · rw [if_neg fun h => hqp (h.trans hplace.symm), hset.others q hqp]
      exact hR.contents q hq
  · rcases Overlay.mem_insert hentry with h | h
    · exact ⟨path, hpath, h.symm, hreadable⟩
    · exact hR.keys entry h

/-- An access in a dry run is answered like the access in the real run. -/
theorem layered_simulates (hroot : root ≠ "") (hplan : real.plan = dry.plan) (hmild : dry.plan.IsMild)
    (hsteady : dry.plan.IsSteady) :
    (files dry).layered.Simulates (files real) (IsSource root d T) (Rehearses dry.plan root d T) := by
  refine ⟨fun path s w hpath hR => ?_, fun path t s w current hpath hR hok => ?_⟩
  · obtain ⟨hresult, hR', _⟩ := layered_read hroot hplan hsteady hpath hR
    exact ⟨hresult, hR'⟩
  · obtain ⟨_, hR', hreadable⟩ := layered_read hroot hplan hsteady hpath hR
    exact layered_write hroot hplan hmild hpath hR' (hreadable current hok) t

lemma decodeText_error {bytes : ByteArray} {e : IoError} (h : decodeText bytes = .error e) : e.kind = .invalidData := by
  unfold decodeText at h
  split at h
  · cases h
  · obtain rfl := Except.error.inj h
    rfl

lemma layered_failsMildly (hmild : dry.plan.IsMild) :
    (files dry).layered.FailsMildly (IsSource root d T) fun s => s.2.2 = d := by
  refine ⟨⟨fun path s _ hs => ?_, fun _ _ _ _ hs => hs⟩, fun path s e hpath hs he => ?_, fun _ _ _ _ _ => rfl⟩
  · cases hget : Assoc.get? (Path.components path) s.1 with
    | some t => rwa [Files.layered_read_of_some hget]
    | none =>
      rw [Files.layered_read_of_none hget]
      dsimp only
      rw [files_read_world]
      exact hs
  · cases hget : Assoc.get? (Path.components path) s.1 with
    | some t =>
      rw [Files.layered_read_of_some hget] at he
      cases he
    | none =>
      rw [Files.layered_read_of_none hget] at he
      cases h : dry.plan s.2.1 (.read path) with
      | some fault =>
        rw [files_read_of_some h] at he
        obtain rfl := Except.error.inj he
        exact hmild.read _ _ _ h
      | none =>
        obtain ⟨p, f, hf, _⟩ := hpath.entry
        rw [files_read_of_none h, hs, Disk.readText_of_entry hf] at he
        exact .inr (decodeText_error he)

/-- A rehearsal comes to the same outcomes as the run that it rehearses. It is never given up, and what can go wrong in
the run is no reason to give it up. -/
theorem rehearse_matches {c : Coordinator} (hroot : c.root ≠ "") (hplan : real.plan = dry.plan)
    (hconsent : real.consent = dry.consent) (hmild : dry.plan.IsMild) (hsteady : dry.plan.IsSteady)
    (options : Options) {checked : List (Fix × Option ValidationError)}
    (hstays : Stays c.root (IsSource c.root d T) checked) {w w' : World}
    (hstart : Rehearses dry.plan c.root d T ([], w) w') :
    (c.rehearse dry { options with dryRun := true } checked w).1 =
        (c.perform real options checked w').1 ∧
      (c.rehearse dry { options with dryRun := true } checked w).2.Matches (Rehearses dry.plan c.root d T)
        (c.perform real options checked w').2 := by
  have htwins : (c.batch dry { options with dryRun := true } (files dry).layered).Twins
      (c.batch real options (files real)) := ⟨rfl, rfl, rfl, hconsent.symm, rfl⟩
  have hagree : (c.batch dry { options with dryRun := true } (files dry).layered).AgreeOnGivingUp
      (c.batch real options (files real)) (IsSource c.root d T)
      (Rehearses dry.plan c.root d T) := by
    intro f shifts s u e hf hs he
    have hmildly : (files dry).layered.FailsMildly (IsSource c.root d T) fun s => s.2.2 = d :=
      layered_failsMildly hmild
    simp [Batch.givesUp, batch, applyChanges_error hmildly hf hs.disk he]
  exact Batch.run_simulates htwins (layered_simulates hroot hplan hmild hsteady) hagree hstays
    ⟨hstart, rfl, rfl, rfl, _, rfl⟩

def overlayOf (c : Coordinator) (env : Circumstances) (options : Options) (fixes : List Fix) (w : World) : Overlay :=
  (c.rehearse env { options with dryRun := true } (c.checked w.2 fixes) w).2.state.1

lemma isSource_checked {c : Coordinator} {fixes : List Fix} {d : Disk} (hT : ∀ p, T p → d.node? p = none) :
    Stays c.root (IsSource c.root d T) (c.checked d fixes) := by
  intro f hf ch hch
  obtain ⟨hrelative, hfile⟩ := (mem_checked hf).2 ch hch
  obtain ⟨p, e, he⟩ := Disk.isFile_iff.1 hfile
  exact ⟨⟨_, hrelative, rfl⟩, p, e, he, Disk.not_of_file? hT (Disk.entry_eq_ok.1 he).2⟩

lemma rehearses_start {plan : FaultPlan} {w : World} {d : Disk} (h : Disk.Touches T w.2 d) :
    Rehearses plan root w.2 T ([], w) (w.1, d) := by
  refine ⟨rfl, h.evolves, fun p hp => ?_, nofun⟩
  rw [h.others p hp]
  rfl

/-- The disk on which a call starts its run, once its backups have been taken. -/
lemma apply_execute (c : Coordinator) (env : Circumstances) (options : Options) (fixes : List Fix) (w : World)
    (hbackups : ∀ id e, (c.apply env options fixes w).result ≠ .error (.backup id e)) :
    ∃ t d, Disk.Touches (c.store.Within env.id w.2) w.2 d ∧
      c.apply env options fixes w = c.execute env options (c.checked w.2 fixes) t (w.1, d) := by
  have happly := c.apply_applies env options fixes w
  generalize c.apply env options fixes w = a at happly hbackups ⊢
  cases happly with
  | bare => exact ⟨transaction env fixes [], w.2, .refl _ _, rfl⟩
  | saved _ _ hrun =>
    obtain ⟨hcovered, _⟩ := covered_of_takeBackups rfl hrun
    exact ⟨_, _, hcovered.kept.touches, rfl⟩
  | unsaved => exact absurd rfl (hbackups _ _)

/-- A dry run predicts the real run: same outcomes, nothing written, no backup taken, and the overlay laid
over the files shows what they hold after the real run. -/
theorem dryRun_predicts (c : Coordinator) (dry real : Circumstances) (options : Options) (fixes : List Fix) (w : World)
    (hoptions : options.dryRun = false) (hroot : c.root ≠ "") (hplan : real.plan = dry.plan)
    (hconsent : real.consent = dry.consent) (hmild : dry.plan.IsMild) (hsteady : dry.plan.IsSteady)
    (hfresh : ∀ p, w.2.placeOf (c.store.transactionDir real.id) <+: p → w.2.node? p = none)
    (hbackups : ∀ id e, (c.apply real options fixes w).result ≠ .error (.backup id e)) :
    (∃ r, (c.apply dry { options with dryRun := true } fixes w).result = .ok r ∧
      (c.apply real options fixes w).result = .ok { r with transactionId := real.id }) ∧
    (c.apply dry { options with dryRun := true } fixes w).world.2 = w.2 ∧
    (∃ t, (c.apply dry { options with dryRun := true } fixes w).coordinator.history = c.history ++ [t] ∧
      t.backups = []) ∧
    ∀ p, ¬ w.2.placeOf (c.store.transactionDir real.id) <+: p →
      ((c.apply real options fixes w).world.2.file? p).map FileEntry.content =
        Overlay.laidOver (c.overlayOf dry options fixes w) w.2 p := by
  obtain ⟨t, d, htouches, hreal⟩ := apply_execute c real options fixes w hbackups
  have hstays : Stays c.root (IsSource c.root w.2 (c.store.Within real.id w.2)) (c.checked w.2 fixes) :=
    isSource_checked hfresh
  obtain ⟨hresult, hmatch⟩ := rehearse_matches hroot hplan hconsent hmild hsteady options hstays
    (rehearses_start htouches)
  have hok : (c.rehearse dry { options with dryRun := true } (c.checked w.2 fixes) w).1 = .ok () :=
    c.rehearse_ok dry rfl _ w
  rw [hreal, execute_of_perform hoptions (hresult.symm.trans hok), apply_of_dryRun c dry fixes w rfl,
    execute_of_dryRun rfl]
  refine ⟨⟨_, rfl, ?_⟩, hmatch.state.disk, ⟨_, rfl, rfl⟩, hmatch.state.contents⟩
  have hperform : c.perform real options (c.checked w.2 fixes) (w.1, d) =
      (.ok (), (c.perform real options (c.checked w.2 fixes) (w.1, d)).2) := Prod.ext (hresult.symm.trans hok) rfl
  obtain ⟨settled, hreport, _⟩ := Batch.finish_run rfl hperform
  obtain ⟨id, hid⟩ := hmatch.report
  rw [hid] at hreport
  obtain rfl : id = real.id := congrArg BatchResult.transactionId hreport
  rw [complete, hid]
  rfl

namespace Specimen

def calm : Circumstances := { fullDisk with plan := .none }

/-- The third access finds no file if it is a read. -/
def vanishing : Circumstances :=
  { fullDisk with plan := fun past next =>
      match next with
      | .read _ => if past.length = 2 then some ⟨.ofKind .notFound, none⟩ else none
      | .write _ => none }

/-- A coordinator without a root, for the directory where relative paths start. -/
def rootless : Coordinator := { coordinator with root := "" }

/-- The workspace is the directory where relative paths start. -/
def inside : World := ([], { world.2 with here := ["ws".toList] })

/-- Two fixes of the same word. -/
def rivals : List Fix :=
  [⟨"1", "i", "", [.replace "a.ts" "let" "const"], .hundredths 90, .low, "naming"⟩,
    ⟨"2", "i", "", [.replace "./a.ts" "let" "var"], .hundredths 90, .low, "naming"⟩]

/-- The ids of the fixes that were applied, and of those that failed. -/
def ids (a : Applied) : Except BatchError (List String × List String) :=
  a.result.map fun r => (r.applied.map Fix.id, r.failed.map Fix.id)

end Specimen

theorem dryRun_predicts_renames :
    Specimen.ids (Specimen.coordinator.apply Specimen.calm {} Specimen.renames Specimen.world) =
      .ok (["1", "2"], []) ∧
    ∀ p, ¬ Specimen.world.2.placeOf (Specimen.coordinator.store.transactionDir Specimen.calm.id) <+: p →
      ((Specimen.coordinator.apply Specimen.calm {} Specimen.renames Specimen.world).world.2.file? p).map
          FileEntry.content =
        Overlay.laidOver (Specimen.coordinator.overlayOf Specimen.calm {} Specimen.renames Specimen.world)
          Specimen.world.2 p := by
  have hids : Specimen.ids (Specimen.coordinator.apply Specimen.calm {} Specimen.renames Specimen.world) =
      .ok (["1", "2"], []) := by decide +kernel
  have hbackups : ∀ id e, (Specimen.coordinator.apply Specimen.calm {} Specimen.renames Specimen.world).result ≠
      .error (.backup id e) := by
    intro id e he
    rw [Specimen.ids, he] at hids
    cases hids
  have hall := dryRun_predicts Specimen.coordinator Specimen.calm Specimen.calm {} Specimen.renames Specimen.world
    rfl (by decide) rfl rfl ⟨nofun, fun _ _ => rfl⟩ (fun _ _ _ _ _ => rfl) Specimen.fresh hbackups
  exact ⟨hids, hall.2.2.2⟩

/-- Reads that fail later in a run than before, or two spellings of a path where the root is empty, make the
real run differ from the dry run: there a file is read again that the dry run finds in its overlay, or the
dry run misses what it has put there under the other spelling. -/
theorem dryRun_mispredicts :
    (Specimen.vanishing.plan.IsMild ∧
      Specimen.ids (Specimen.coordinator.apply Specimen.vanishing { dryRun := true } Specimen.renames Specimen.world) =
        .ok (["1", "2"], []) ∧
      Specimen.ids (Specimen.coordinator.apply Specimen.vanishing {} Specimen.renames Specimen.world) =
        .ok (["1"], ["2"])) ∧
    Specimen.calm.plan.IsMild ∧ Specimen.calm.plan.IsSteady ∧
      Specimen.ids (Specimen.rootless.apply Specimen.calm { dryRun := true } Specimen.rivals Specimen.inside) =
        .ok (["1", "2"], []) ∧
      Specimen.ids (Specimen.rootless.apply Specimen.calm {} Specimen.rivals Specimen.inside) =
        .ok (["1"], ["2"]) := by
  refine ⟨⟨⟨fun past path fault h => ?_, fun _ _ => rfl⟩, by decide +kernel, by decide +kernel⟩,
    ⟨nofun, fun _ _ => rfl⟩, fun _ _ _ _ _ => rfl, by decide +kernel, by decide +kernel⟩
  simp only [Specimen.vanishing] at h
  split at h
  · obtain rfl := Option.some.inj h
    exact .inl rfl
  · cases h

end Coordinator
end Autofix
