import Autofix.Proofs.Disk.Frame

/-! Spellings of a path. Empty segments and `.` segments lead nowhere, so paths with the same components
lead to the same place; only a path that ends with such a segment asks for a directory there. -/
namespace Autofix

namespace Path

/-- Does the component lead away from where it starts? -/
def Component.isStep : Component → Bool
  | .parent | .name _ => true
  | .root | .current => false

/-- The segment that a component is written as. -/
def Component.text : Component → Text
  | .parent => ['.', '.']
  | .name t => t
  | .root | .current => []

lemma ofSegment?_eq_some {segment : Text} {part : Component} (h : Component.ofSegment? segment = some part) :
    part.isStep = true ∧ part.text = segment := by
  rcases ofSegment?_cases h with ⟨rfl, hparent⟩ | rfl
  · exact ⟨rfl, hparent.symm⟩
  · exact ⟨rfl, rfl⟩

def steps (segments : List Text) : List Text := segments.filter fun s => (Component.ofSegment? s).isSome

lemma steps_eq_map (segments : List Text) : steps segments = (further segments).map Component.text := by
  induction segments with
  | nil => rfl
  | cons segment rest ih =>
    rw [further_cons, List.map_append, ← ih]
    cases hs : Component.ofSegment? segment with
    | none => simp [steps, hs]
    | some part => simp [steps, hs, (ofSegment?_eq_some hs).2]

lemma filter_isStep_further (segments : List Text) : (further segments).filter Component.isStep = further segments := by
  refine List.filter_eq_self.2 fun part hpart => ?_
  obtain ⟨segment, _, hs⟩ := List.mem_filterMap.1 hpart
  exact (ofSegment?_eq_some hs).1

/-- The components that lead somewhere are those of the segments. -/
lemma further_segments (path : String) : further (segments path) = (components path).filter Component.isStep := by
  obtain ⟨first, rest, hs⟩ := List.exists_cons_of_ne_nil (segments_ne_nil path)
  rw [components_eq hs, hs, further_cons, List.filter_append, filter_isStep_further]
  congr 1
  unfold leading
  split
  · next hf =>
    subst hf
    cases rest.isEmpty <;> rfl
  · split
    · next hdot =>
      subst hdot
      rfl
    · cases ho : Component.ofSegment? first with
      | none => rfl
      | some part => simp [(ofSegment?_eq_some ho).1]

/-- Does the path end with a segment that leads somewhere? Any other path names a directory. -/
def endsInStep (path : String) : Bool :=
  (segments path).getLast?.any fun s => (Component.ofSegment? s).isSome

/-- Spellings of one path that mean a directory alike and are acceptable as paths alike. -/
structure Alike (a b : String) : Prop where
  components : components a = components b
  ending : endsInStep a = endsInStep b
  fault : Disk.pathFault? a = Disk.pathFault? b

end Path

namespace Disk
open Autofix.Path
variable {d : Disk} {a b : String}

lemma step_of_skip {segment : Text} (h : Component.ofSegment? segment = none) {p : Place}
    (hd : d.node? p = some .directory) : d.step p segment = .ok p := by
  have hs : segment = [] ∨ segment = ['.'] := by
    by_contra hs
    unfold Component.ofSegment? at h
    rw [if_neg hs] at h
    split at h <;> cases h
  simp [step, hd, hs]

/-- On the way to a segment that leads somewhere, those that lead nowhere do not count: the next one needs
a directory just as they do. -/
lemma walk_steps {segments : List Text} {last : Text} (hlast : segments.getLast? = some last)
    (h : (Component.ofSegment? last).isSome) (d : Disk) (p : Place) :
    d.walk p segments = d.walk p (steps segments) := by
  induction segments generalizing p with
  | nil => cases hlast
  | cons segment rest ih =>
    cases rest with
    | nil =>
      obtain rfl : segment = last := by simpa using hlast
      simp [steps, h]
    | cons next rest =>
      rw [List.getLast?_cons_cons] at hlast
      have hrest := ih hlast
      cases hs : Component.ofSegment? segment with
      | some part =>
        have hsteps : steps (segment :: next :: rest) = segment :: steps (next :: rest) := by simp [steps, hs]
        rw [hsteps, walk, walk]
        split
        · exact hrest _
        · rfl
      | none =>
        have hsteps : steps (segment :: next :: rest) = steps (next :: rest) := by simp [steps, hs]
        obtain ⟨first, others, hne⟩ : ∃ first others, steps (next :: rest) = first :: others := by
          refine List.exists_cons_of_ne_nil (List.ne_nil_of_mem (a := last) ?_)
          exact List.mem_filter.2 ⟨List.mem_of_getLast? hlast, h⟩
        rw [hsteps, walk]
        cases hn : d.node? p with
        | none => simp [hne, walk, step, hn]
        | some n =>
          cases n with
          | file e => simp [hne, walk, step, hn]
          | directory =>
            rw [step_of_skip hs hn]
            exact hrest p

lemma startOf_eq (h : components a = components b) (d : Disk) : d.startOf a = d.startOf b := by
  have habs : isAbsolute a = isAbsolute b := by
    rw [Bool.eq_iff_iff, ← root_mem_components, ← root_mem_components, h]
  rw [startOf, startOf, habs]

lemma locate_alike (h : Alike a b) (ha : endsInStep a = true) (d : Disk) : d.locate a = d.locate b := by
  have hb := h.ending ▸ ha
  unfold endsInStep at ha hb
  obtain ⟨last, hlast, hs⟩ := (Option.any_eq_true _ _).1 ha
  obtain ⟨last', hlast', hs'⟩ := (Option.any_eq_true _ _).1 hb
  have hsteps : steps (segments a) = steps (segments b) := by
    rw [steps_eq_map, steps_eq_map, further_segments, further_segments, h.components]
  rw [locate, locate, h.fault, startOf_eq h.components, walk_steps hlast hs, walk_steps hlast' hs', hsteps]

lemma entry_of_not_endsInStep (h : endsInStep a = false) (d : Disk) (p : Place) (e : FileEntry) :
    d.entry a ≠ .ok (p, e) := by
  intro he
  obtain ⟨hl, hf⟩ := entry_eq_ok.1 he
  obtain ⟨init, last, hsegments⟩ := (List.eq_nil_or_concat (segments a)).resolve_left (segments_ne_nil a)
  have hskip : Component.ofSegment? last = none := by simpa [endsInStep, hsegments] using h
  have hw := (locate_eq_walk hl).2
  rw [hsegments, List.concat_eq_append] at hw
  rw [file?_eq_none_of_directory (walk_trailing hskip hw)] at hf
  cases hf

/-- Spellings of one path lead to the same file, on every disk. -/
theorem entry_alike (h : Alike a b) (p : Place) (e : FileEntry) : d.entry a = .ok (p, e) ↔ d.entry b = .ok (p, e) := by
  cases ha : endsInStep a with
  | true => rw [entry_eq_ok, entry_eq_ok, locate_alike h ha]
  | false =>
    exact ⟨fun he => absurd he (entry_of_not_endsInStep ha d p e),
      fun he => absurd he (entry_of_not_endsInStep (h.ending ▸ ha) d p e)⟩

lemma isFile_alike (h : Alike a b) (d : Disk) : d.isFile a = d.isFile b := by
  rw [Bool.eq_iff_iff, isFile_iff, isFile_iff]
  constructor
  · rintro ⟨p, e, he⟩
    exact ⟨p, e, (entry_alike h p e).1 he⟩
  · rintro ⟨p, e, he⟩
    exact ⟨p, e, (entry_alike h p e).2 he⟩

end Disk
end Autofix
