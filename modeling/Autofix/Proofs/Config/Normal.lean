import Autofix.Config.Basic
import Autofix.Proofs.Fixer.Registry
import Autofix.Proofs.Text.Trim

/-! The normal form of a configuration. A list of names is brought to the one list that has every name of it once,
trimmed, in the order in which the names come first; so what is in normal form stays as it is, and a fixer is switched
off exactly if some name that was written is the fixer's own up to blanks around it. -/
namespace Autofix.Config

section FirstSeen
variable {α : Type} [BEq α] [LawfulBEq α]

lemma eraseDups_of_nodup {l : List α} (h : l.Nodup) : l.eraseDups = l := by
  induction l with
  | nil => rfl
  | cons a l ih =>
    rw [List.nodup_cons] at h
    have hothers : l.filter (fun b => !b == a) = l := List.filter_eq_self.2 fun b hb => by
      simpa using fun heq : b = a => h.1 (heq ▸ hb)
    rw [List.eraseDups_cons, hothers, ih h.2]

/-- What is left of a list without repetitions stands in the order of its first occurrences in the list, also if
only some of the elements are looked at. The choice of elements is left open for the induction, where those
after the first one are chosen to differ from it. -/
theorem pairwise_idxOf_eraseDups_filter (l : List α) (p : α → Bool) :
    (l.filter p).eraseDups.Pairwise fun a b => l.idxOf a < l.idxOf b := by
  induction l generalizing p with
  | nil => exact .nil
  | cons x l ih =>
    have hlater : ∀ {q : α → Bool}, (∀ a, q a = true → a ≠ x) →
        (l.filter q).eraseDups.Pairwise fun a b => (x :: l).idxOf a < (x :: l).idxOf b := by
      intro q hq
      refine (ih q).imp_of_mem fun {a b} ha hb hlt => ?_
      have hne : ∀ {c}, c ∈ (l.filter q).eraseDups → c ≠ x := fun hc =>
        hq _ (List.mem_filter.1 (List.mem_eraseDups.1 hc)).2
      rw [List.idxOf_cons_ne _ (hne ha).symm, List.idxOf_cons_ne _ (hne hb).symm]
      exact Nat.succ_lt_succ hlt
    cases hx : p x with
    | true =>
      rw [List.filter_cons_of_pos hx, List.eraseDups_cons, List.filter_filter, List.pairwise_cons]
      refine ⟨fun b hb => ?_, hlater fun a ha => by simpa using (Bool.and_eq_true_iff.1 ha).1⟩
      have hne : b ≠ x := by
        simpa using (Bool.and_eq_true_iff.1 (List.mem_filter.1 (List.mem_eraseDups.1 hb)).2).1
      rw [List.idxOf_cons_self, List.idxOf_cons_ne _ hne.symm]
      exact Nat.succ_pos _
    | false =>
      rw [List.filter_cons_of_neg (by simp [hx])]
      exact hlater fun a ha heq => by simp [← heq, ha] at hx

end FirstSeen

section Names
variable {raw names : List String} {n : String}

/-- The names are those of a list as it was written, in normal form. -/
structure IsNormalOf (raw names : List String) : Prop where
  trimmed : ∀ n ∈ names, isBlankString n = false ∧ trimmed n = n
  nodup : names.Nodup
  firstSeen : names.Pairwise fun a b => (raw.map Autofix.trimmed).idxOf a < (raw.map Autofix.trimmed).idxOf b
  mem_iff : ∀ n, n ∈ names ↔ n ≠ "" ∧ ∃ m ∈ raw, Autofix.trimmed m = n

lemma mem_normalizeNames : n ∈ normalizeNames names ↔ n ≠ "" ∧ ∃ m ∈ names, trimmed m = n := by
  simp only [normalizeNames, List.mem_eraseDups, List.mem_filter, List.mem_map, Bool.not_eq_true',
    String.isEmpty_eq_false_iff]
  tauto

lemma normalizeNames_eq_nil : normalizeNames names = [] ↔ ∀ n ∈ names, trimmed n = "" := by
  rw [List.eq_nil_iff_forall_not_mem]
  simp only [mem_normalizeNames]
  constructor
  · intro h n hn
    by_contra hne
    exact h (trimmed n) ⟨hne, n, hn, rfl⟩
  · rintro h n ⟨hne, m, hm, rfl⟩
    exact hne (h m hm)

lemma isNormalOf_normalizeNames (raw : List String) : IsNormalOf raw (normalizeNames raw) where
  trimmed n hn := by
    obtain ⟨hne, m, _, rfl⟩ := mem_normalizeNames.1 hn
    refine ⟨?_, trimmed_trimmed m⟩
    rw [← Bool.not_eq_true, ← trimmed_eq_empty, trimmed_trimmed]
    exact hne
  nodup := (pairwise_idxOf_eraseDups_filter _ _).imp fun hlt heq => absurd hlt (by simp [heq])
  firstSeen := pairwise_idxOf_eraseDups_filter _ _
  mem_iff _ := mem_normalizeNames

theorem isNormalOf_iff : IsNormalOf raw names ↔ names = normalizeNames raw := by
  constructor
  · intro h
    have hnormal := isNormalOf_normalizeNames raw
    have hperm : names.Perm (normalizeNames raw) :=
      (List.perm_ext_iff_of_nodup h.nodup hnormal.nodup).2 fun n => by rw [h.mem_iff, hnormal.mem_iff]
    exact hperm.eq_of_pairwise (fun a b _ _ hab hba => absurd hab hba.asymm) h.firstSeen hnormal.firstSeen
  · rintro rfl
    exact isNormalOf_normalizeNames raw

lemma normalizeNames_normalizeNames (raw : List String) : normalizeNames (normalizeNames raw) = normalizeNames raw := by
  have h := isNormalOf_normalizeNames raw
  have hmap : (normalizeNames raw).map trimmed = normalizeNames raw :=
    (List.map_congr_left fun n hn => (h.trimmed n hn).2).trans (List.map_id' _)
  have hfilter : (normalizeNames raw).filter (fun n => !n.isEmpty) = normalizeNames raw :=
    List.filter_eq_self.2 fun n hn => by simpa using ((h.mem_iff n).1 hn).1
  conv_lhs => rw [normalizeNames, hmap, hfilter]
  exact eraseDups_of_nodup h.nodup

example : normalizeNames [" formatting ", "imports", "formatting", ""] = ["formatting", "imports"] := by
  decide +kernel

end Names

lemma trimmed_normalizeBackupDir (path : String) : trimmed (normalizeBackupDir path) = normalizeBackupDir path := by
  rw [normalizeBackupDir]
  split
  · decide +kernel
  · exact trimmed_trimmed path

lemma normalizeBackupDir_ne_empty (path : String) : normalizeBackupDir path ≠ "" := by
  rw [normalizeBackupDir]
  split
  · decide
  · next h => simpa using h

lemma normalizeBackupDir_of_trimmed {path : String} (h : trimmed path ≠ "") :
    normalizeBackupDir path = trimmed path := by
  rw [normalizeBackupDir, if_neg (by simpa using h)]

lemma normalizePlaceholder_not_blank (text : String) : isBlankString (normalizePlaceholder text) = false := by
  rw [normalizePlaceholder]
  split
  · decide +kernel
  · next h => simpa using h

lemma normalizePlaceholder_of_not_blank {text : String} (h : isBlankString text = false) :
    normalizePlaceholder text = text := by
  rw [normalizePlaceholder, if_neg (by simp [h])]

/-- The fixers that are left are those that come with the program, without each whose name was written among the
disabled ones with any blanks around it. -/
theorem enabled_normalizeNames (parser : Parser) (raw : List String) : Registry.enabled parser (normalizeNames raw) =
    (Registry.builtin parser).filter fun f => decide (∀ n ∈ raw, trimmed n ≠ f.name) := by
  have hnames : ∀ f ∈ Registry.builtin parser, f.name ≠ "" := fun f hf =>
    ne_of_mem_of_not_mem (Registry.map_name_builtin parser ▸ List.mem_map_of_mem hf) (by decide)
  rw [Registry.enabled]
  refine List.filter_congr fun f hf => ?_
  have hname := hnames f hf
  rw [Bool.eq_iff_iff, Bool.not_eq_true', decide_eq_true_eq, ← Bool.not_eq_true, List.contains_iff_mem,
    mem_normalizeNames]
  simp [hname]

/-- The normal form of a configuration is canonical. A configuration in normal form stays as it is. Its categories and
its disabled fixers are the only lists without blank, untrimmed or repeated names that hold the trimmed names that were
written, in the order in which they come first. The backup directory is trimmed and not empty, the placeholder is not
blank, both are what was written if that says anything, and all else is unchanged. Of the fixers that come with the
program, in their order, exactly those are left whose names no disabled entry is trimmed to. -/
theorem normalize_canonical (c : Config) :
    c.normalize.normalize = c.normalize ∧
    (∀ names, names = c.normalize.fix.categories ↔ IsNormalOf c.fix.categories names) ∧
    (∀ names, names = c.normalize.fixers.disabled ↔ IsNormalOf c.fixers.disabled names) ∧
    (c.normalize.fix.backupDir ≠ "" ∧ trimmed c.normalize.fix.backupDir = c.normalize.fix.backupDir ∧
      (trimmed c.fix.backupDir ≠ "" → c.normalize.fix.backupDir = trimmed c.fix.backupDir)) ∧
    (isBlankString c.normalize.fixers.placeholder = false ∧
      (isBlankString c.fixers.placeholder = false → c.normalize.fixers.placeholder = c.fixers.placeholder)) ∧
    { c.normalize.fix with categories := c.fix.categories, backupDir := c.fix.backupDir } = c.fix ∧
    ∀ parser, Registry.enabled parser c.normalize.fixers.disabled =
      (Registry.builtin parser).filter fun f => decide (∀ n ∈ c.fixers.disabled, trimmed n ≠ f.name) := by
  have hdir : normalizeBackupDir (normalizeBackupDir c.fix.backupDir) = normalizeBackupDir c.fix.backupDir := by
    rw [normalizeBackupDir_of_trimmed] <;> rw [trimmed_normalizeBackupDir]
    exact normalizeBackupDir_ne_empty _
  have hagain : c.normalize.normalize = c.normalize := by
    simp only [normalize, normalizeNames_normalizeNames, hdir,
      normalizePlaceholder_of_not_blank (normalizePlaceholder_not_blank _)]
  have hbackup : c.normalize.fix.backupDir = normalizeBackupDir c.fix.backupDir := by rw [normalize]
  have hplaceholder : c.normalize.fixers.placeholder = normalizePlaceholder c.fixers.placeholder := rfl
  rw [hbackup, hplaceholder]
  exact ⟨hagain, fun _ => isNormalOf_iff.symm, fun _ => isNormalOf_iff.symm,
    ⟨normalizeBackupDir_ne_empty _, trimmed_normalizeBackupDir _, normalizeBackupDir_of_trimmed⟩,
    ⟨normalizePlaceholder_not_blank _, normalizePlaceholder_of_not_blank⟩, rfl,
    fun parser => enabled_normalizeNames parser _⟩

end Autofix.Config
