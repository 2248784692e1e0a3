import Autofix.Disk
import Autofix.Proofs.Path

/-! Places and paths. A path names a place whatever stands on the way; if the way is open, the path
leads there. -/
namespace Autofix

/-- The place one component further. -/
def Path.Component.follow (p : Place) : Path.Component → Place
  | .root => []
  | .current => p
  | .parent => p.dropLast
  | .name n => p ++ [n]

namespace Disk
open Autofix.Path

/-- The place that components lead to from the directory where relative paths start. -/
def placeAt (d : Disk) (parts : List Component) : Place := parts.foldl Component.follow d.here

def placeOf (d : Disk) (path : String) : Place := d.placeAt (components path)

def file? (d : Disk) (p : Place) : Option FileEntry :=
  match d.node? p with
  | some (.file e) => some e
  | _ => none

lemma file?_eq_some {d : Disk} {p : Place} {e : FileEntry} :
    d.file? p = some e ↔ d.node? p = some (.file e) := by
  unfold file?
  split <;> simp_all

lemma file?_eq_none_of_directory {d : Disk} {p : Place} (h : d.node? p = some .directory) :
    d.file? p = none := by
  simp [file?, h]

lemma file?_eq_none_of_none {d : Disk} {p : Place} (h : d.node? p = none) : d.file? p = none := by
  simp [file?, h]

/-- A file stands outside of all places at which there is nothing. -/
lemma not_of_file? {d : Disk} {T : Place → Prop} (hT : ∀ p, T p → d.node? p = none) {p : Place} {e : FileEntry}
    (h : d.file? p = some e) : ¬ T p := by
  intro hp
  rw [file?_eq_none_of_none (hT p hp)] at h
  cases h

lemma step_eq {d : Disk} {p q : Place} {segment : Text} (h : d.step p segment = .ok q) :
    q = (Component.ofSegment? segment).elim p (Component.follow p) ∧ d.node? p = some .directory := by
  unfold step at h
  split at h
  · cases h
  · cases h
  · next hd =>
    refine ⟨?_, hd⟩
    unfold Component.ofSegment?
    split at h
    · next hs => simp [hs, ← Except.ok.inj h]
    · next hs =>
      split at h
      · next hp => simp [hp, Component.follow, ← Except.ok.inj h]
      · next hp =>
        split at h
        · cases h
        · simp [hs, hp, Component.follow, ← Except.ok.inj h]

lemma walk_eq {d : Disk} {p q : Place} {segments : List Text} (h : d.walk p segments = .ok q) :
    q = (further segments).foldl Component.follow p := by
  induction segments generalizing p with
  | nil => exact (Except.ok.inj h).symm
  | cons segment rest ih =>
    rw [walk] at h
    split at h
    · next next hs =>
      have hn := (step_eq hs).1
      rw [ih h, hn]
      cases hc : Component.ofSegment? segment <;> simp [further, hc]
    · cases h

lemma walk_append {d : Disk} {p q : Place} {a b : List Text} :
    d.walk p (a ++ b) = .ok q ↔ ∃ m, d.walk p a = .ok m ∧ d.walk m b = .ok q := by
  induction a generalizing p with
  | nil => simp [walk]
  | cons segment rest ih =>
    simp only [List.cons_append, walk]
    split
    · exact ih
    · simp

lemma locate_eq_walk {d : Disk} {path : String} {p : Place} (h : d.locate path = .ok p) :
    pathFault? path = none ∧ d.walk (d.startOf path) (segments path) = .ok p := by
  unfold locate at h
  split at h
  · cases h
  · next hf => exact ⟨hf, h⟩

/-- Only the first segment of a path can have a component that it would not have further on: the root or a `.`,
and following either of them is starting where the path starts. -/
lemma placeOf_eq (d : Disk) (path : String) :
    d.placeOf path = (further (segments path)).foldl Component.follow (d.startOf path) := by
  obtain ⟨first, rest, hs⟩ := List.exists_cons_of_ne_nil (segments_ne_nil path)
  have habs := isAbsolute_iff hs
  have hskip : Component.ofSegment? ([] : Text) = none := by simp [Component.ofSegment?]
  rw [placeOf, placeAt, components_eq hs, startOf, hs]
  by_cases hf : first = []
  · subst hf
    by_cases hr : rest = []
    · simp [hr, leading, further, hskip, habs]
    · simp [hr, leading, further, hskip, habs, Component.follow]
  · by_cases hc : first = ['.']
    · have hdot : Component.ofSegment? ['.'] = none := by simp [Component.ofSegment?]
      simp [hc, leading, further, hdot, habs, Component.follow]
    · cases ho : Component.ofSegment? first <;> simp [hf, hc, leading, further, ho, habs]

/-- Where a path leads is the place that it names. -/
theorem locate_eq_placeOf {d : Disk} {path : String} {p : Place} (h : d.locate path = .ok p) :
    p = d.placeOf path := by
  rw [placeOf_eq]
  exact walk_eq (locate_eq_walk h).2

theorem placeOf_join (d : Disk) {directory path : String} (hp : isAbsolute path = false) :
    d.placeOf (join directory path) =
      (further (segments path)).foldl Component.follow (d.placeOf directory) := by
  by_cases hd : directory = ""
  · have hempty : d.placeOf "" = d.here := by
      simp [placeOf, placeAt, components, segments, Text.splitAt]
    rw [hd, join_empty, hempty, placeOf_eq, startOf, hp, if_neg Bool.false_ne_true]
  · simp [placeOf, placeAt, components_join hd hp, List.foldl_append]

theorem placeOf_join_name (d : Disk) (directory : String) {n : String} (h : IsName n) :
    d.placeOf (join directory n) = d.placeOf directory ++ [n.toList] := by
  rw [placeOf_join d h.not_absolute, h.segments]
  simp [further, h.component, Component.follow]

lemma foldl_follow_names (p : Place) (names : List Text) :
    (names.map Component.name).foldl Component.follow p = p ++ names := by
  induction names generalizing p with
  | nil => simp
  | cons n names ih => simp [Component.follow, ih]

/-- Paths below a workspace that name the same place have the same components. -/
theorem components_eq_of_placeOf_eq {d : Disk} {root a b : String} (hroot : root ≠ "")
    (ha : isWorkspaceRelative a = true) (hb : isWorkspaceRelative b = true)
    (h : d.placeOf (join root a) = d.placeOf (join root b)) : components (join root a) = components (join root b) := by
  have habs := not_absolute_of_relative ha
  have hbbs := not_absolute_of_relative hb
  obtain ⟨names, hnames⟩ := further_of_relative ha
  obtain ⟨names', hnames'⟩ := further_of_relative hb
  rw [placeOf_join d habs, placeOf_join d hbbs, hnames, hnames', foldl_follow_names, foldl_follow_names] at h
  rw [components_join hroot habs, components_join hroot hbbs, hnames, hnames', List.append_cancel_left h]

lemma status_eq_ok {d : Disk} {path : String} {p : Place} {n : Node} :
    d.status path = .ok (p, n) ↔ d.locate path = .ok p ∧ d.node? p = some n := by
  unfold status
  cases hl : d.locate path with
  | error e => simp [bind, Except.bind]
  | ok q =>
    simp only [bind, Except.bind]
    cases hq : d.node? q with
    | none =>
      simp only [Except.ok.injEq, false_iff, not_and, reduceCtorEq]
      rintro rfl
      simp [hq]
    | some m =>
      simp only [Except.ok.injEq, Prod.mk.injEq]
      constructor
      · rintro ⟨rfl, rfl⟩
        exact ⟨rfl, hq⟩
      · rintro ⟨rfl, hm⟩
        exact ⟨rfl, by simpa [hq] using hm⟩

/-- A path leads to a file just when it leads to a place where that file stands. -/
theorem entry_eq_ok {d : Disk} {path : String} {p : Place} {e : FileEntry} :
    d.entry path = .ok (p, e) ↔ d.locate path = .ok p ∧ d.file? p = some e := by
  rw [file?_eq_some, ← status_eq_ok]
  unfold entry
  split <;> simp_all

lemma entry_placeOf {d : Disk} {path : String} {p : Place} {e : FileEntry}
    (h : d.entry path = .ok (p, e)) : p = d.placeOf path :=
  locate_eq_placeOf (entry_eq_ok.1 h).1

lemma isFile_iff {d : Disk} {path : String} : d.isFile path = true ↔ ∃ p e, d.entry path = .ok (p, e) := by
  unfold isFile entry
  rcases d.status path with e | ⟨q, f | _⟩ <;> simp

/-- A path that ends with a segment that leads nowhere leads to a directory if it leads anywhere. -/
lemma walk_trailing {d : Disk} {p q : Place} {segments : List Text} {last : Text}
    (hlast : Component.ofSegment? last = none) (h : d.walk p (segments ++ [last]) = .ok q) :
    d.node? q = some .directory := by
  obtain ⟨m, _, hm⟩ := walk_append.1 h
  rw [walk] at hm
  split at hm
  · next r hs =>
    obtain ⟨hr, hd⟩ := step_eq hs
    obtain rfl : r = q := Except.ok.inj hm
    obtain rfl : r = m := by simpa [hlast] using hr
    exact hd
  · cases hm

/-- A path to a file does not end with a slash, so a write to it goes there. -/
theorem target_of_entry {d : Disk} {path : String} {p : Place} {e : FileEntry}
    (h : d.entry path = .ok (p, e)) : d.target path = .ok p := by
  obtain ⟨hl, hf⟩ := entry_eq_ok.1 h
  have hlast : path.toList.getLast? ≠ some '/' := by
    intro hlast
    obtain ⟨init, hi⟩ := List.getLast?_eq_some_iff.1 hlast
    have hs : segments path = segments (String.ofList init) ++ [[]] := by
      rw [← String.ofList_toList (s := path), hi, segments_slash]
      rfl
    have hw := (locate_eq_walk hl).2
    rw [hs] at hw
    rw [file?_eq_none_of_directory (walk_trailing rfl hw)] at hf
    cases hf
  have hbare : String.ofList (Text.trimEndWhile (· == '/') path.toList) = path := by
    have hkeep : path.toList.reverse.dropWhile (· == '/') = path.toList.reverse := by
      cases hr : path.toList.reverse with
      | nil => rfl
      | cons c u =>
        have hc : path.toList.getLast? = some c := by simp [List.getLast?_eq_head?_reverse, hr]
        have hne : c ≠ '/' := by
          rintro rfl
          exact hlast hc
        simp [hne]
    simp [Text.trimEndWhile, hkeep]
  simp [target, hbare, hl]

end Disk
end Autofix
