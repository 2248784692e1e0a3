import Mathlib.Data.List.Sort
import Mathlib.Data.Prod.Lex
import Mathlib.Data.String.Basic
import Autofix.Snapshot.Store

/-! Listings of backups. What stands in the directory of a store is met in no particular order, and what is no backup
that can be read is passed over. The manifests are sorted by their times and ids, so the listing does not depend on the
order in which they were met. -/
namespace Autofix

namespace Assoc
variable {κ α : Type} [DecidableEq κ] {m m' : Assoc κ α} {k : κ} {a : α}

/-- In a map that has each key once, the value of a key is the one that stands beside it. -/
theorem get?_eq_some (hm : m.keys.Nodup) : get? k m = some a ↔ (k, a) ∈ m := by
  induction m with
  | nil => simp
  | cons e rest ih =>
    obtain ⟨l, b⟩ := e
    rw [keys, List.map_cons, List.nodup_cons] at hm
    have hfresh : (l, a) ∉ rest := fun h => hm.1 (List.mem_map.2 ⟨_, h, rfl⟩)
    by_cases hk : k = l
    · subst hk
      simp [get?, hfresh, eq_comm]
    · simp [get?, hk, ih hm.2]

theorem get?_perm (hm : m.keys.Nodup) (h : m'.Perm m) (k : κ) : get? k m' = get? k m := by
  have hm' : m'.keys.Nodup := (h.map Prod.fst).nodup_iff.2 hm
  ext a
  rw [get?_eq_some hm', get?_eq_some hm, h.mem_iff]

end Assoc

namespace Disk
variable {d d' : Disk}

/-- The disk with what is on it in another order. -/
structure Reordered (d d' : Disk) : Prop where
  here : d'.here = d.here
  nodes : d'.nodes.Perm d.nodes

/-- Both disks have the same at each place. -/
structure Agrees (d d' : Disk) : Prop where
  here : d'.here = d.here
  node? : ∀ p, d'.node? p = d.node? p

lemma Reordered.agrees (h : d.Reordered d') (hkeys : d.nodes.keys.Nodup) : d.Agrees d' where
  here := h.here
  node? p := by rw [Disk.node?, Disk.node?, Assoc.get?_perm hkeys h.nodes]

namespace Agrees

lemma walk (h : d.Agrees d') (segments : List Text) (p : Place) : d'.walk p segments = d.walk p segments := by
  induction segments generalizing p with
  | nil => rfl
  | cons segment rest ih => simp only [Disk.walk, step, h.node?, ih]

lemma status (h : d.Agrees d') (path : String) : d'.status path = d.status path := by
  simp only [Disk.status, locate, startOf, h.here, h.walk, h.node?]

lemma readText (h : d.Agrees d') (path : String) : d'.readText path = d.readText path := by
  simp only [Disk.readText, readBytes, entry, h.status]

end Agrees

/-- What is taken for a child of a directory is what stands one name below it. -/
lemma child_eq_some {p q : Place} {n : Node} {child : Text × Node} :
    (match q.getLast? with
      | some name => if q.dropLast = p then some (name, n) else none
      | none => none) = some child ↔ q = p ++ [child.1] ∧ n = child.2 := by
  obtain ⟨name, n'⟩ := child
  cases hlast : q.getLast? with
  | none => simp [List.getLast?_eq_none_iff.1 hlast]
  | some last =>
    obtain ⟨front, rfl⟩ := List.getLast?_eq_some_iff.1 hlast
    simp only [List.dropLast_concat, Option.ite_none_right_eq_some, Option.some.injEq, Prod.mk.injEq,
      List.append_singleton_inj, and_assoc]

lemma mem_children (hkeys : d.nodes.keys.Nodup) {p : Place} {name : Text} {n : Node} :
    (name, n) ∈ d.children p ↔ d.node? (p ++ [name]) = some n := by
  rw [node?, if_neg (by simp), Assoc.get?_eq_some hkeys, children, List.mem_filterMap]
  constructor
  · rintro ⟨⟨q, n'⟩, hq, hchild⟩
    obtain ⟨rfl, rfl⟩ := child_eq_some.1 hchild
    exact hq
  · exact fun h => ⟨_, h, child_eq_some.2 ⟨rfl, rfl⟩⟩

lemma nodup_children (hkeys : d.nodes.keys.Nodup) (p : Place) : (d.children p).Nodup := by
  refine (List.Nodup.of_map _ hkeys).filterMap fun a b child ha hb => ?_
  obtain ⟨hplace, hnode⟩ := child_eq_some.1 ha
  obtain ⟨hplace', hnode'⟩ := child_eq_some.1 hb
  exact Prod.ext (hplace.trans hplace'.symm) (hnode.trans hnode'.symm)

end Disk

namespace Manifest

/-- What decides on a manifest's place in a listing: its time, then its id. -/
def rank (m : Manifest) : ℤ ×ₗ ℕ ×ₗ String :=
  toLex (m.timestamp.seconds, toLex (m.timestamp.nanos, m.transactionId))

lemma rank_inj {a b : Manifest} :
    a.rank = b.rank ↔ (a.timestamp, a.transactionId) = (b.timestamp, b.transactionId) := by
  obtain ⟨_, ⟨_, _⟩, _⟩ := a
  obtain ⟨_, ⟨_, _⟩, _⟩ := b
  simp [rank, and_assoc]

lemma le_iff {a b : Manifest} : le a b = true ↔ a.rank ≤ b.rank := by
  obtain ⟨_, ⟨_, _⟩, _⟩ := a
  obtain ⟨_, ⟨_, _⟩, _⟩ := b
  simp only [le, Timestamp.lt, rank, Prod.Lex.toLex_le_toLex, Bool.or_eq_true, Bool.and_eq_true, beq_iff_eq,
    decide_eq_true_eq, Bool.not_eq_true', decide_eq_false_iff_not, not_lt, Timestamp.mk.injEq]
  grind

lemma pairwise_mergeSort (ms : List Manifest) : (ms.mergeSort le).Pairwise fun a b => a.rank ≤ b.rank := by
  refine (List.pairwise_mergeSort (fun a b c hab hbc => ?_) (fun a b => ?_) ms).imp le_iff.1
  · exact le_iff.2 ((le_iff.1 hab).trans (le_iff.1 hbc))
  · rw [Bool.or_eq_true, le_iff, le_iff]
    exact le_total _ _

/-- Manifests of different ranks are sorted in one way only, whatever their order was before. -/
theorem mergeSort_eq_of_perm {ms ns : List Manifest} (hperm : ms.Perm ns)
    (hinj : ∀ a ∈ ns, ∀ b ∈ ns, a.rank = b.rank → a = b) : ms.mergeSort le = ns.mergeSort le := by
  refine List.Perm.eq_of_pairwise (fun a b ha hb hab hba => ?_) (pairwise_mergeSort ms) (pairwise_mergeSort ns)
    ((List.mergeSort_perm ms le).trans (hperm.trans (List.mergeSort_perm ns le).symm))
  exact hinj a (hperm.mem_iff.1 (List.mem_mergeSort.1 ha)) b (List.mem_mergeSort.1 hb) (hab.antisymm hba)

/-- Sorted manifests of different ranks are in strict order. -/
theorem pairwise_lt_mergeSort {ms : List Manifest} (h : (ms.map rank).Nodup) :
    (ms.mergeSort le).Pairwise fun a b => a.rank < b.rank := by
  have hne : (ms.mergeSort le).Pairwise fun a b => a.rank ≠ b.rank :=
    List.pairwise_map.1 (((List.mergeSort_perm ms le).map rank).nodup_iff.2 h)
  exact (pairwise_mergeSort ms).imp₂ (fun _ _ hle hne => lt_of_le_of_ne hle hne) hne

end Manifest

namespace SnapshotStore
variable {s : SnapshotStore} {d d' : Disk} {p : Place} {ids : List String} {id : String} {m : Manifest}

/-- Below the place of its directory, the store has a directory with the id of a transaction for its name, and the
manifest in there can be read. -/
structure Keeps (s : SnapshotStore) (d : Disk) (p : Place) (id : String) (m : Manifest) : Prop where
  directory : d.node? (p ++ [id.toList]) = some .directory
  isTransactionId : isTransactionId id = true
  manifest : ∃ t, d.readText (s.manifestPath id) = .ok t ∧ Manifest.parse t = .ok m

lemma load_eq_ok : s.load d id = .ok m ↔
    SnapshotStore.isTransactionId id = true ∧
      ∃ t, d.readText (s.manifestPath id) = .ok t ∧ Manifest.parse t = .ok m := by
  unfold load
  cases hid : SnapshotStore.isTransactionId id with
  | false => simp
  | true =>
    cases hread : d.readText (s.manifestPath id) with
    | error e => simp
    | ok t => cases hparse : Manifest.parse t <;> simp [hparse]

lemma directoryName_eq_some {child : Text × Node} :
    (match child with
      | (name, node) =>
        match node with
        | .directory => some (String.ofList name)
        | .file _ => none) = some id ↔ child = (id.toList, .directory) := by
  obtain ⟨name, node⟩ := child
  cases node with
  | file _ => simp
  | directory => simp [← String.toList_inj]

lemma mem_directoryNames {children : List (Text × Node)} :
    id ∈ directoryNames children ↔ (id.toList, Node.directory) ∈ children := by
  rw [directoryNames, List.mem_filterMap]
  constructor
  · rintro ⟨child, hchild, hname⟩
    exact directoryName_eq_some.1 hname ▸ hchild
  · exact fun h => ⟨_, h, directoryName_eq_some.2 rfl⟩

lemma load_toOption_eq_some : (s.load d id).toOption = some m ↔ s.load d id = .ok m := by
  cases s.load d id <;> simp [Except.toOption]

lemma mem_collect : m ∈ s.collect d ids ↔ ∃ id ∈ ids, s.load d id = .ok m := by
  simp only [collect, List.mem_mergeSort, List.mem_filterMap, load_toOption_eq_some]

lemma nodup_directoryNames {children : List (Text × Node)} (h : children.Nodup) : (directoryNames children).Nodup :=
  h.filterMap fun _ _ _ ha hb => (directoryName_eq_some.1 ha).trans (directoryName_eq_some.1 hb).symm

/-- The ids of the directories that are found, among which are those of all backups that can be read. -/
lemma keeps_iff (hkeys : d.nodes.keys.Nodup) :
    s.Keeps d p id m ↔ id ∈ directoryNames (d.children p) ∧ s.load d id = .ok m := by
  rw [mem_directoryNames, Disk.mem_children hkeys, load_eq_ok]
  exact ⟨fun h => ⟨h.directory, h.isTransactionId, h.manifest⟩, fun ⟨hdir, hid, hm⟩ => ⟨hdir, hid, hm⟩⟩

lemma collect_agrees (h : d.Agrees d') (ids : List String) : s.collect d' ids = s.collect d ids := by
  simp only [collect, load, h.readText]

/-- Directories that are met in another order make no difference if no two manifests have the same time and id. -/
theorem collect_perm {ids ids' : List String} (hperm : ids'.Perm ids)
    (hdistinct : ∀ i ∈ ids, ∀ j ∈ ids, ∀ m n, s.load d i = .ok m → s.load d j = .ok n → i ≠ j → m.rank ≠ n.rank) :
    s.collect d ids' = s.collect d ids := by
  refine Manifest.mergeSort_eq_of_perm (hperm.filterMap _) fun a ha b hb hrank => ?_
  obtain ⟨i, hi, ha⟩ := List.mem_filterMap.1 ha
  obtain ⟨j, hj, hb⟩ := List.mem_filterMap.1 hb
  rw [load_toOption_eq_some] at ha hb
  by_cases hij : i = j
  · subst hij
    exact Except.ok.inj (ha.symm.trans hb)
  · exact absurd hrank (hdistinct i hi j hj a b ha hb hij)

/-- Manifests with a time and id of their own are listed in strict order. -/
theorem pairwise_collect {ids : List String} (hids : ids.Nodup)
    (hdistinct : ∀ i ∈ ids, ∀ j ∈ ids, ∀ m n, s.load d i = .ok m → s.load d j = .ok n → i ≠ j → m.rank ≠ n.rank) :
    (s.collect d ids).Pairwise fun a b => a.rank < b.rank := by
  refine Manifest.pairwise_lt_mergeSort (List.pairwise_map.2 (List.pairwise_filterMap.2 ?_))
  refine hids.imp_of_mem fun hi hj hij m hm n hn => ?_
  exact hdistinct _ hi _ hj m n (load_toOption_eq_some.1 hm) (load_toOption_eq_some.1 hn) hij

/-- A listing has the manifest of each backup that can be read, once, and nothing else, sorted by time and then by id,
if no two of them have the same time and id. It is the same in whatever order the directory is gone through, and what
cannot be read bears on nothing else. -/
theorem list_is_canonical (s : SnapshotStore) (d : Disk) (p : Place) (hkeys : d.nodes.keys.Nodup)
    (hdir : d.status s.directory = .ok (p, .directory))
    (hdistinct : ∀ i j m n, s.Keeps d p i m → s.Keeps d p j n → i ≠ j →
      (m.timestamp, m.transactionId) ≠ (n.timestamp, n.transactionId)) :
    ∃ ms, (∀ m, m ∈ ms ↔ ∃ id, s.Keeps d p id m) ∧ ms.Pairwise (fun a b => a.rank < b.rank) ∧
      ∀ d', d.Reordered d' → s.list d' = .ok ms := by
  have hranks : ∀ i ∈ directoryNames (d.children p), ∀ j ∈ directoryNames (d.children p), ∀ m n,
      s.load d i = .ok m → s.load d j = .ok n → i ≠ j → m.rank ≠ n.rank := by
    intro i hi j hj m n hm hn hij hrank
    exact hdistinct i j m n ((keeps_iff hkeys).2 ⟨hi, hm⟩) ((keeps_iff hkeys).2 ⟨hj, hn⟩) hij
      (Manifest.rank_inj.1 hrank)
  refine ⟨s.collect d (directoryNames (d.children p)), fun m => ?_,
    pairwise_collect (nodup_directoryNames (Disk.nodup_children hkeys p)) hranks, fun d' hd' => ?_⟩
  · rw [mem_collect]
    exact exists_congr fun id => (keeps_iff hkeys).symm
  · have hsame := hd'.agrees hkeys
    have hnames : (directoryNames (d'.children p)).Perm (directoryNames (d.children p)) :=
      (hd'.nodes.filterMap _).filterMap _
    rw [list, Disk.list, hsame.status, hdir]
    exact congrArg Except.ok ((collect_agrees hsame _).trans (collect_perm hnames hranks))

namespace Specimen

def shelf : Place := ["ws".toList, "backups".toList]

/-- A directory with a manifest that says some text. -/
def shelved (name text : String) : List (Place × Node) :=
  [(shelf ++ [name.toList], .directory),
    (shelf ++ [name.toList, "manifest.json".toList],
      .file ⟨encodeText text.toList, Disk.permissionsOf 0o644, .ofParts 0 0⟩)]

def shelvedText (id second : String) : String :=
  "\x7b\"transaction_id\":\"" ++ id ++ "\",\"timestamp\":\"2026-01-01T00:00:0" ++ second ++ "Z\",\"entries\":[]\x7d"

/-- Two backups, a name that is no id, a manifest that is none, one that is missing, and a file. -/
def jumble : Disk :=
  { nodes := [(["ws".toList], .directory), (shelf, .directory)] ++ shelved "t1" (shelvedText "t1" "5") ++
      shelved "a b" (shelvedText "t0" "0") ++ shelved "t3" "[" ++ [(shelf ++ ["t4".toList], .directory)] ++
      shelved "t2" (shelvedText "t2" "1") ++
      [(shelf ++ ["t5".toList], .file ⟨encodeText [], Disk.permissionsOf 0o644, .ofParts 0 0⟩)] }

def shelvedManifest (id : String) (second : Int) : Manifest := ⟨id, ⟨1767225600 + second, 0⟩, []⟩

end Specimen

theorem list_is_canonical_jumbled : ∃ ms, ms.Pairwise (fun a b => a.rank < b.rank) ∧
    (∀ m, m ∈ ms ↔ m = Specimen.shelvedManifest "t1" 5 ∨ m = Specimen.shelvedManifest "t2" 1) ∧
    (SnapshotStore.mk "/ws/backups").list Specimen.jumble = .ok ms ∧
    (SnapshotStore.mk "/ws/backups").list { Specimen.jumble with nodes := Specimen.jumble.nodes.reverse } = .ok ms := by
  have hkeys : Specimen.jumble.nodes.keys.Nodup := by decide +kernel
  have hfound : (directoryNames (Specimen.jumble.children Specimen.shelf)).filterMap (fun id =>
      ((SnapshotStore.mk "/ws/backups").load Specimen.jumble id).toOption.map (id, ·)) =
        [("t1", Specimen.shelvedManifest "t1" 5), ("t2", Specimen.shelvedManifest "t2" 1)] := by decide +kernel
  have hkeeps : ∀ id m, (SnapshotStore.mk "/ws/backups").Keeps Specimen.jumble Specimen.shelf id m ↔
      id = "t1" ∧ m = Specimen.shelvedManifest "t1" 5 ∨ id = "t2" ∧ m = Specimen.shelvedManifest "t2" 1 := by
    intro id m
    have hpair : (id, m) ∈ [("t1", Specimen.shelvedManifest "t1" 5), ("t2", Specimen.shelvedManifest "t2" 1)] ↔
        (SnapshotStore.mk "/ws/backups").Keeps Specimen.jumble Specimen.shelf id m := by
      rw [keeps_iff hkeys, ← load_toOption_eq_some, ← hfound]
      simp
    simpa using hpair.symm
  obtain ⟨ms, hmem, hsorted, hlist⟩ := list_is_canonical ⟨"/ws/backups"⟩ Specimen.jumble Specimen.shelf hkeys
    (by decide +kernel) fun i j m n hi hj hij => by
      rw [hkeeps] at hi hj
      rcases hi with ⟨rfl, rfl⟩ | ⟨rfl, rfl⟩ <;> rcases hj with ⟨rfl, rfl⟩ | ⟨rfl, rfl⟩ <;>
        simp_all [Specimen.shelvedManifest]
  refine ⟨ms, hsorted, fun m => ?_, hlist _ ⟨rfl, .refl _⟩, hlist _ ⟨rfl, List.reverse_perm _⟩⟩
  simp [hmem, hkeeps, exists_or]

end SnapshotStore
end Autofix
