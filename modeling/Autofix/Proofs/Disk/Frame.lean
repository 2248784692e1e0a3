import Autofix.Proofs.Disk.Place

/-! What operations on a disk do, and what they leave alone. Nothing is ever taken away: directories stay
directories and files stay files, so a path that led somewhere still leads there. -/
namespace Autofix.Disk

/-- Whatever stood on the first disk stands on the second as what it was; files may have been rewritten. -/
structure Evolves (d d' : Disk) : Prop where
  here : d'.here = d.here
  directory : ∀ p, d.node? p = some .directory → d'.node? p = some .directory
  file : ∀ p, (d.file? p).isSome → (d'.file? p).isSome

/-- Of all files, only those at places in `S` may be new or rewritten. -/
structure Touches (S : Place → Prop) (d d' : Disk) : Prop where
  evolves : Evolves d d'
  others : ∀ p, ¬ S p → d'.file? p = d.file? p

/-- A file is put at one place, and nothing happens to the other files. -/
structure Sets (p : Place) (e : FileEntry) (d d' : Disk) : Prop extends Touches (· = p) d d' where
  file : d'.file? p = some e

/-- Files are put at places, one after another. -/
inductive SetsAll : List (Place × FileEntry) → Disk → Disk → Prop
  | nil (d : Disk) : SetsAll [] d d
  | cons {p : Place} {e : FileEntry} {l : List (Place × FileEntry)} {d d' d'' : Disk} (first : Sets p e d d')
      (rest : SetsAll l d' d'') : SetsAll ((p, e) :: l) d d''

namespace Evolves
variable {d d' d'' : Disk}

lemma refl (d : Disk) : Evolves d d := ⟨rfl, fun _ h => h, fun _ h => h⟩

lemma trans (h : Evolves d d') (h' : Evolves d' d'') : Evolves d d'' :=
  ⟨h'.here.trans h.here, fun p hp => h'.directory p (h.directory p hp), fun p hp => h'.file p (h.file p hp)⟩

lemma placeAt (h : Evolves d d') (parts : List Path.Component) : d'.placeAt parts = d.placeAt parts := by
  rw [Disk.placeAt, Disk.placeAt, h.here]

lemma placeOf (h : Evolves d d') (path : String) : d'.placeOf path = d.placeOf path := h.placeAt _

lemma step (h : Evolves d d') {p q : Place} {segment : Text} (hs : d.step p segment = .ok q) :
    d'.step p segment = .ok q := by
  have hd := (step_eq hs).2
  rw [Disk.step, hd] at hs
  rw [Disk.step, h.directory p hd]
  exact hs

lemma walk (h : Evolves d d') {p q : Place} {segments : List Text} (hw : d.walk p segments = .ok q) :
    d'.walk p segments = .ok q := by
  induction segments generalizing p with
  | nil => exact hw
  | cons segment rest ih =>
    rw [Disk.walk] at hw ⊢
    cases hs : d.step p segment with
    | error e => simp [hs] at hw
    | ok next =>
      rw [hs] at hw
      rw [h.step hs]
      exact ih hw

theorem locate (h : Evolves d d') {path : String} {p : Place} (hl : d.locate path = .ok p) :
    d'.locate path = .ok p := by
  obtain ⟨hf, hw⟩ := locate_eq_walk hl
  have hstart : d'.startOf path = d.startOf path := by simp [startOf, h.here]
  rw [Disk.locate, hf, hstart]
  exact h.walk hw

lemma entry_of_file (h : Evolves d d') {path : String} {p : Place} {e e' : FileEntry}
    (he : d.entry path = .ok (p, e)) (hf : d'.file? p = some e') : d'.entry path = .ok (p, e') :=
  entry_eq_ok.2 ⟨h.locate (entry_eq_ok.1 he).1, hf⟩

theorem entry (h : Evolves d d') {path : String} {p : Place} {e : FileEntry} (he : d.entry path = .ok (p, e)) :
    ∃ e', d'.entry path = .ok (p, e') := by
  have hs := h.file p (by simp [(entry_eq_ok.1 he).2])
  obtain ⟨e', hf⟩ := Option.isSome_iff_exists.1 hs
  exact ⟨e', h.entry_of_file he hf⟩

end Evolves

namespace Touches
variable {S T : Place → Prop} {d d' d'' : Disk}

lemma refl (S : Place → Prop) (d : Disk) : Touches S d d := ⟨.refl d, fun _ _ => rfl⟩

lemma trans (h : Touches S d d') (h' : Touches S d' d'') : Touches S d d'' :=
  ⟨h.evolves.trans h'.evolves, fun p hp => (h'.others p hp).trans (h.others p hp)⟩

lemma mono (h : Touches S d d') (hST : ∀ p, S p → T p) : Touches T d d' :=
  ⟨h.evolves, fun p hp => h.others p fun hs => hp (hST p hs)⟩

theorem entry (h : Touches S d d') {path : String} {p : Place} {e : FileEntry} (he : d.entry path = .ok (p, e))
    (hp : ¬ S p) : d'.entry path = .ok (p, e) :=
  h.evolves.entry_of_file he ((h.others p hp).trans (entry_eq_ok.1 he).2)

end Touches

namespace Sets
variable {p : Place} {e e' : FileEntry} {d d' d'' : Disk}

lemma touches (h : Sets p e d d') {S : Place → Prop} (hp : S p) : Touches S d d' :=
  h.toTouches.mono fun _ hq => hq ▸ hp

lemma again (h : Sets p e d d') (h' : Sets p e' d' d'') : Sets p e' d d'' :=
  ⟨h.toTouches.trans h'.toTouches, h'.file⟩

lemma entry (h : Sets p e d d') {path : String} (hl : d.locate path = .ok p) : d'.entry path = .ok (p, e) :=
  entry_eq_ok.2 ⟨h.evolves.locate hl, h.file⟩

end Sets

namespace SetsAll
variable {l : List (Place × FileEntry)} {d d' : Disk}

lemma touches (h : SetsAll l d d') : Touches (fun p => ∃ e, (p, e) ∈ l) d d' := by
  induction h with
  | nil d => exact .refl _ d
  | cons first _ ih =>
    exact (first.touches ⟨_, List.mem_cons_self⟩).trans
      (ih.mono fun _ ⟨e, he⟩ => ⟨e, List.mem_cons_of_mem _ he⟩)

/-- The file that is put last at a place stays there. -/
theorem file (h : SetsAll l d d') {p : Place} {e : FileEntry} (hp : (p, e) ∈ l) :
    ∃ e', (p, e') ∈ l ∧ d'.file? p = some e' := by
  induction h generalizing e with
  | nil d => cases hp
  | @cons q f l d d' d'' first rest ih =>
    by_cases hq : ∃ e', (p, e') ∈ l
    · obtain ⟨f', hf'⟩ := hq
      obtain ⟨e', he', hf⟩ := ih hf'
      exact ⟨e', List.mem_cons_of_mem _ he', hf⟩
    · have hfirst : (p, e) = (q, f) := by
        rcases List.mem_cons.1 hp with h | h
        · exact h
        · exact absurd ⟨e, h⟩ hq
      obtain ⟨rfl, rfl⟩ := Prod.mk.inj hfirst
      exact ⟨e, List.mem_cons_self, (rest.touches.others p hq).trans first.file⟩

end SetsAll

lemma node?_put (d : Disk) {p : Place} (hp : p ≠ []) (q : Place) (n : Node) :
    (d.put p n).node? q = if q = p then some n else d.node? q := by
  split
  · next h =>
    subst h
    exact node?_put_self d hp n
  · next h => exact node?_put_of_ne d h n

lemma ne_nil_of_not_directory {d : Disk} {p : Place} (h : d.node? p ≠ some .directory) : p ≠ [] := by
  rintro rfl
  exact h (by simp [node?])

/-- A file may be put wherever no directory stands. -/
theorem put_sets {d : Disk} {p : Place} (h : d.node? p ≠ some .directory) (e : FileEntry) :
    Sets p e d (d.put p (.file e)) := by
  have hp := ne_nil_of_not_directory h
  have hself : (d.put p (.file e)).file? p = some e := by simp [file?_eq_some, node?_put d hp]
  have hother : ∀ q, q ≠ p → (d.put p (.file e)).file? q = d.file? q := by
    intro q hq
    simp [file?, node?_put d hp, hq]
  refine ⟨⟨⟨rfl, fun q hq => ?_, fun q hq => ?_⟩, hother⟩, hself⟩
  · have hne : q ≠ p := by
      rintro rfl
      exact h hq
    simpa [node?_put d hp, hne] using hq
  · by_cases hqp : q = p
    · simp [hqp, hself]
    · rwa [hother q hqp]

lemma put_put (d : Disk) (p : Place) (n m : Node) : (d.put p n).put p m = d.put p m := by
  simp [put, Assoc.insert_insert]

/-- A directory may be made where nothing stands. -/
theorem put_directory {d : Disk} {p : Place} (h : d.node? p = none) :
    Touches (fun _ => False) d (d.put p .directory) := by
  have hp := ne_nil_of_not_directory (d := d) (p := p) (by simp [h])
  have hfile : ∀ q, (d.put p .directory).file? q = d.file? q := by
    intro q
    by_cases hq : q = p
    · subst hq
      rw [file?_eq_none_of_none h, file?_eq_none_of_directory (by simp [node?_put d hp])]
    · simp [file?, node?_put d hp, hq]
  refine ⟨⟨rfl, fun q hq => ?_, fun q hq => by rwa [hfile q]⟩, fun q _ => hfile q⟩
  have hne : q ≠ p := by
    rintro rfl
    simp [h] at hq
  simpa [node?_put d hp, hne] using hq

lemma locate_of_target {d : Disk} {path : String} {p : Place} (h : d.target path = .ok p) :
    d.locate path = .ok p := by
  unfold target at h
  dsimp only at h
  split at h
  · exact h
  · split at h <;> cases h

theorem write_of_entry {d : Disk} {path : String} {p : Place} {e : FileEntry} (h : d.entry path = .ok (p, e))
    (now : FileTime) (bytes : ByteArray) :
    ∃ d', d.write now path bytes = (.ok (), d') ∧ Sets p { e with content := bytes, modified := now } d d' := by
  have hn := file?_eq_some.1 (entry_eq_ok.1 h).2
  refine ⟨_, by simp [write, target_of_entry h, hn], put_sets (by simp [hn]) _⟩

theorem write_ok {d d' : Disk} {now : FileTime} {path : String} {bytes : ByteArray}
    (h : d.write now path bytes = (.ok (), d')) :
    ∃ p e, d.locate path = .ok p ∧ e.content = bytes ∧ Sets p e d d' := by
  unfold write at h
  split at h
  · cases h
  · next p ht =>
    split at h
    · cases h
    · next f hn =>
      cases h
      exact ⟨p, _, locate_of_target ht, rfl, put_sets (by simp [hn]) _⟩
    · next hn =>
      cases h
      exact ⟨p, _, locate_of_target ht, rfl, put_sets (by simp [hn]) _⟩

lemma write_error {d d' : Disk} {now : FileTime} {path : String} {bytes : ByteArray} {e : IoError}
    (h : d.write now path bytes = (.error e, d')) : d' = d := by
  unfold write at h
  split at h
  · cases h; rfl
  · split at h <;> cases h
    rfl

/-- A file that is made stands where nothing stood. -/
theorem create_ok {d d' : Disk} {now : FileTime} {path : String} {bytes : ByteArray}
    (h : d.create now path bytes = (.ok (), d')) :
    ∃ p e, d.locate path = .ok p ∧ d.node? p = none ∧ e.content = bytes ∧ Sets p e d d' := by
  unfold create at h
  split at h
  · cases h
  · next p ht =>
    split at h
    · cases h
    · next hn =>
      cases h
      exact ⟨p, _, locate_of_target ht, hn, rfl, put_sets (by simp [hn]) _⟩

lemma create_error {d d' : Disk} {now : FileTime} {path : String} {bytes : ByteArray} {e : IoError}
    (h : d.create now path bytes = (.error e, d')) : d' = d := by
  unfold create at h
  split at h
  · cases h; rfl
  · split at h <;> cases h
    rfl

lemma makeAlong_touches {d d' : Disk} {p : Place} {segments : List Text} {r : Except IoError Unit}
    (h : d.makeAlong p segments = (r, d')) : Touches (fun _ => False) d d' := by
  induction segments generalizing d p with
  | nil =>
    cases h
    exact .refl _ _
  | cons segment rest ih =>
    rw [makeAlong] at h
    split at h
    · cases h
      exact .refl _ _
    · split at h
      · exact ih h
      · cases h
        exact .refl _ _
      · next hn => exact (put_directory hn).trans (ih h)

theorem makeDirectories_touches {d d' : Disk} {path : String} {r : Except IoError Unit}
    (h : d.makeDirectories path = (r, d')) : Touches (fun _ => False) d d' := by
  unfold makeDirectories at h
  split at h
  · cases h
    exact .refl _ _
  · exact makeAlong_touches h

lemma modify_of_entry {d : Disk} {path : String} {p : Place} {e : FileEntry} (h : d.entry path = .ok (p, e))
    (f : FileEntry → FileEntry) : ∃ d', d.modify path f = (.ok (), d') ∧ Sets p (f e) d d' := by
  have hn := file?_eq_some.1 (entry_eq_ok.1 h).2
  exact ⟨_, by simp [modify, h], put_sets (by simp [hn]) _⟩

lemma modify_put {d : Disk} {path : String} {p : Place} (hl : d.locate path = .ok p)
    (hn : d.node? p ≠ some .directory) (e : FileEntry) (f : FileEntry → FileEntry) :
    (d.put p (.file e)).modify path f = (.ok (), d.put p (.file (f e))) := by
  simp [modify, (put_sets hn e).entry hl, put_put]

lemma readBytes_of_entry {d : Disk} {path : String} {p : Place} {e : FileEntry}
    (h : d.entry path = .ok (p, e)) : d.readBytes path = .ok e.content := by
  simp [readBytes, h, Except.map]

lemma readText_of_entry {d : Disk} {path : String} {p : Place} {e : FileEntry}
    (h : d.entry path = .ok (p, e)) : d.readText path = decodeText e.content := by
  simp [readText, readBytes_of_entry h]

end Autofix.Disk
