import Mathlib.Tactic.Common
import Autofix.Path

/-! Paths through their components: what a join does to them, and how names are told from the other
segments. -/
namespace Autofix

namespace Text
variable {sep : Char → Bool}

lemma splitAt_ne_nil (sep : Char → Bool) (t : Text) : splitAt sep t ≠ [] := by
  cases t with
  | nil => simp [splitAt]
  | cons c rest =>
    rw [splitAt]
    split
    · simp
    · split <;> simp

lemma splitAt_cons_of_sep {c : Char} (h : sep c = true) (t : Text) :
    splitAt sep (c :: t) = [] :: splitAt sep t := by
  rw [splitAt]
  split
  · next he => exact absurd he (splitAt_ne_nil sep t)
  · next he => simp [h, he]

lemma splitAt_cons_of_not_sep {c : Char} (h : sep c = false) {t piece : Text} {pieces : List Text}
    (ht : splitAt sep t = piece :: pieces) : splitAt sep (c :: t) = (c :: piece) :: pieces := by
  rw [splitAt, ht]
  simp [h]

theorem splitAt_append {c : Char} (h : sep c = true) (a b : Text) :
    splitAt sep (a ++ c :: b) = splitAt sep a ++ splitAt sep b := by
  induction a with
  | nil => simp [splitAt_cons_of_sep h, splitAt]
  | cons x a ih =>
    cases hx : sep x with
    | true => simp [splitAt_cons_of_sep hx, ih]
    | false =>
      obtain ⟨piece, pieces, hp⟩ := List.exists_cons_of_ne_nil (splitAt_ne_nil sep a)
      have hab : splitAt sep (a ++ c :: b) = piece :: (pieces ++ splitAt sep b) := by simp [ih, hp]
      simp [splitAt_cons_of_not_sep hx hp, splitAt_cons_of_not_sep hx hab]

theorem splitAt_of_forall_not {t : Text} (h : ∀ c ∈ t, sep c = false) : splitAt sep t = [t] := by
  induction t with
  | nil => rfl
  | cons c t ih =>
    have ht := ih fun x hx => h x (List.mem_cons_of_mem _ hx)
    exact splitAt_cons_of_not_sep (h c List.mem_cons_self) ht

theorem splitAt_head_nil_iff {t : Text} {rest : List Text} :
    splitAt sep t = [] :: rest ↔ t = [] ∧ rest = [] ∨ ∃ c u, t = c :: u ∧ sep c = true ∧ rest = splitAt sep u := by
  cases t with
  | nil => simp [splitAt]
  | cons c u =>
    cases hc : sep c with
    | true =>
      rw [splitAt_cons_of_sep hc]
      constructor
      · intro h
        exact .inr ⟨c, u, rfl, hc, (List.cons.inj h).2.symm⟩
      · rintro (⟨h, _⟩ | ⟨x, v, h, _, rfl⟩)
        · exact absurd h (List.cons_ne_nil _ _)
        · rw [(List.cons.inj h).2]
    | false =>
      obtain ⟨piece, pieces, hp⟩ := List.exists_cons_of_ne_nil (splitAt_ne_nil sep u)
      simp [splitAt_cons_of_not_sep hc hp, hc]

end Text

namespace Path

/-- The components of all segments after the first one. -/
def further (segments : List Text) : List Component := segments.filterMap Component.ofSegment?

lemma further_cons (segment : Text) (rest : List Text) :
    further (segment :: rest) = (Component.ofSegment? segment).toList ++ further rest := by
  cases h : Component.ofSegment? segment <;> simp [further, h]

/-- A text that names something in a directory. -/
structure IsName (n : String) : Prop where
  no_slash : '/' ∉ n.toList
  component : Component.ofSegment? n.toList = some (.name n.toList)

lemma isName_of_underscore {n : String} (hs : '/' ∉ n.toList) (hu : '_' ∈ n.toList) : IsName n := by
  refine ⟨hs, ?_⟩
  have h0 : n.toList ≠ [] := by rintro he; simp [he] at hu
  have h1 : n.toList ≠ ['.'] := by rintro he; simp [he] at hu
  have h2 : n.toList ≠ ['.', '.'] := by rintro he; simp [he] at hu
  simp [Component.ofSegment?, h0, h1, h2]

lemma segments_ne_nil (path : String) : segments path ≠ [] := Text.splitAt_ne_nil _ _

lemma IsName.segments {n : String} (h : IsName n) : segments n = [n.toList] := by
  refine Text.splitAt_of_forall_not fun c hc => ?_
  have hne : c ≠ '/' := by
    rintro rfl
    exact h.no_slash hc
  simpa using hne

lemma segments_slash (a b : Text) :
    segments (String.ofList (a ++ '/' :: b)) = segments (String.ofList a) ++ segments (String.ofList b) := by
  simp [segments, Text.splitAt_append]

/-- A path is absolute just when an empty segment comes first and is not the only one. -/
theorem isAbsolute_iff {path : String} {first : Text} {rest : List Text}
    (h : segments path = first :: rest) : isAbsolute path = true ↔ first = [] ∧ rest ≠ [] := by
  unfold segments at h
  cases hp : path.toList with
  | nil =>
    rw [hp] at h
    simp only [Text.splitAt, List.cons.injEq] at h
    simp [isAbsolute, hp, ← h.2]
  | cons c u =>
    rw [hp] at h
    by_cases hc : c = '/'
    · subst hc
      rw [Text.splitAt_cons_of_sep (by simp)] at h
      simp only [List.cons.injEq] at h
      simp [isAbsolute, hp, ← h.1, ← h.2, Text.splitAt_ne_nil]
    · obtain ⟨piece, pieces, hu⟩ := List.exists_cons_of_ne_nil (Text.splitAt_ne_nil (· == '/') u)
      rw [Text.splitAt_cons_of_not_sep (by simpa using hc) hu] at h
      simp only [List.cons.injEq] at h
      simp [isAbsolute, hp, hc, ← h.1]

lemma IsName.not_absolute {n : String} (h : IsName n) : isAbsolute n = false := by
  by_contra hc
  exact ((isAbsolute_iff h.segments).1 (by simpa using hc)).2 rfl

/-- The first component of a path with a first segment, given whether others follow. -/
def leading (first : Text) (alone : Bool) : Option Component :=
  if first = [] then (if alone then none else some .root)
  else if first = ['.'] then some .current
  else Component.ofSegment? first

lemma components_eq {path : String} {first : Text} {rest : List Text} (h : segments path = first :: rest) :
    components path = (leading first rest.isEmpty).toList ++ further rest := by
  simp [components, h, leading, further, List.isEmpty_iff]

lemma segments_eq_nil_cons_nil {path : String} (h : segments path = [[]]) : path = "" := by
  unfold segments at h
  rcases Text.splitAt_head_nil_iff.1 h with ⟨he, _⟩ | ⟨c, u, _, _, he⟩
  · exact String.toList_eq_nil_iff.1 he
  · exact absurd he.symm (Text.splitAt_ne_nil _ _)

/-- The segments of a path below a directory that is not the empty path. The last segment of the
directory is dropped if it is empty. -/
theorem segments_join {directory path : String} (hd : directory ≠ "") (hp : isAbsolute path = false) :
    segments (join directory path) = segments directory ++ segments path ∨
      ∃ init, segments directory = init ++ [[]] ∧ init ≠ [] ∧
        segments (join directory path) = init ++ segments path := by
  have hne : directory.isEmpty = false := by simpa [String.isEmpty_iff] using hd
  unfold join
  rw [if_neg (by simp [hp])]
  by_cases hl : directory.toList.getLast? = some '/'
  · right
    obtain ⟨init, hi⟩ := List.getLast?_eq_some_iff.1 hl
    have hdir : directory = String.ofList (init ++ ['/']) := by
      rw [← hi, String.ofList_toList]
    refine ⟨segments (String.ofList init), ?_, segments_ne_nil _, ?_⟩
    · rw [hdir, segments_slash]
      rfl
    · have hj : directory ++ path = String.ofList (init ++ '/' :: path.toList) := by
        apply String.toList_injective
        simp [String.toList_append, hi]
      simp only [hne, hl, beq_self_eq_true, Bool.or_true, if_true]
      rw [hj, segments_slash, String.ofList_toList]
  · left
    have hj : directory ++ "/" ++ path = String.ofList (directory.toList ++ '/' :: path.toList) := by
      apply String.toList_injective
      simp [String.toList_append]
    have hlast : (directory.toList.getLast? == some '/') = false := by simpa using hl
    simp only [hne, hlast, Bool.or_self, Bool.false_eq_true, if_false]
    rw [hj, segments_slash, String.ofList_toList, String.ofList_toList]

theorem components_join {directory path : String} (hd : directory ≠ "") (hp : isAbsolute path = false) :
    components (join directory path) = components directory ++ further (segments path) := by
  obtain ⟨first, rest, hs⟩ := List.exists_cons_of_ne_nil (segments_ne_nil directory)
  have hpath := segments_ne_nil path
  rcases segments_join hd hp with hj | ⟨init, hi, hne, hj⟩
  · have hj' : segments (join directory path) = first :: (rest ++ segments path) := by rw [hj, hs]; rfl
    have halone : leading first rest.isEmpty = leading first (rest ++ segments path).isEmpty := by
      by_cases hf : first = []
      · have hr : rest ≠ [] := by
          rintro rfl
          exact hd (segments_eq_nil_cons_nil (by rw [hs, hf]))
        rw [List.isEmpty_eq_false_iff.2 hr, List.isEmpty_eq_false_iff.2 (by simp [hr])]
      · simp [leading, hf]
    rw [components_eq hs, components_eq hj', halone]
    simp [further, List.filterMap_append]
  · obtain ⟨first', init', rfl⟩ := List.exists_cons_of_ne_nil hne
    have hi' : segments directory = first' :: (init' ++ [[]]) := hi
    have hj' : segments (join directory path) = first' :: (init' ++ segments path) := hj
    have h1 : (init' ++ [([] : Text)]).isEmpty = false := by simp
    have h2 : (init' ++ segments path).isEmpty = false := by simp [hpath]
    have h3 : Component.ofSegment? [] = none := by simp [Component.ofSegment?]
    rw [components_eq hi', components_eq hj', h1, h2]
    simp [further, List.filterMap_append, h3]

lemma join_empty (path : String) : join "" path = path := by
  unfold join
  split
  · rfl
  · simp

theorem fileName?_join {directory n : String} (h : IsName n) : fileName? (join directory n) = some n.toList := by
  by_cases hd : directory = ""
  · have hf : n.toList ≠ [] ∧ n.toList ≠ ['.'] := by
      constructor <;> intro he <;> have := h.component <;> simp [he, Component.ofSegment?] at this
    have hc : components n = [.name n.toList] := by
      rw [components_eq h.segments]
      simp [leading, hf, h.component, further]
    simp [hd, join_empty, fileName?, hc]
  · rw [fileName?, components_join hd h.not_absolute, h.segments]
    simp [further, h.component]

section Workspace

/-- A slash ends a segment in both splittings, a backslash only in the second, so the segments agree as long as
they hold no backslash. -/
lemma splitAt_replaceChars {t a b : Text} {as bs : List Text} (ha : Text.splitAt (· == '/') t = a :: as)
    (hb : Text.splitAt (· == '/') (Text.replaceChars (· == '\\') '/' t) = b :: bs) :
    ('\\' ∉ a → b = a) ∧ ∀ piece ∈ as, '\\' ∉ piece → piece ∈ bs := by
  induction t generalizing a b as bs with
  | nil =>
    obtain ⟨rfl, rfl⟩ := List.cons.inj ha
    obtain ⟨rfl, rfl⟩ := List.cons.inj hb
    simp
  | cons c t ih =>
    obtain ⟨a', as', ha'⟩ := List.exists_cons_of_ne_nil (Text.splitAt_ne_nil (· == '/') t)
    obtain ⟨b', bs', hb'⟩ := List.exists_cons_of_ne_nil
      (Text.splitAt_ne_nil (· == '/') (Text.replaceChars (· == '\\') '/' t))
    obtain ⟨hfirst, hrest⟩ := ih ha' hb'
    by_cases hslash : c = '/'
    · subst hslash
      rw [Text.splitAt_cons_of_sep (by simp), ha'] at ha
      rw [Text.replaceChars, List.map_cons, Text.splitAt_cons_of_sep (by simp), ← Text.replaceChars, hb'] at hb
      obtain ⟨rfl, rfl⟩ := List.cons.inj ha
      obtain ⟨rfl, rfl⟩ := List.cons.inj hb
      refine ⟨fun _ => rfl, fun piece hp hn => ?_⟩
      rcases List.mem_cons.1 hp with rfl | hp
      · rw [hfirst hn]
        exact List.mem_cons_self
      · exact List.mem_cons_of_mem _ (hrest piece hp hn)
    · rw [Text.splitAt_cons_of_not_sep (by simpa using hslash) ha'] at ha
      obtain ⟨rfl, rfl⟩ := List.cons.inj ha
      by_cases hback : c = '\\'
      · subst hback
        rw [Text.replaceChars, List.map_cons, Text.splitAt_cons_of_sep (by simp), ← Text.replaceChars, hb'] at hb
        obtain ⟨rfl, rfl⟩ := List.cons.inj hb
        refine ⟨fun hn => absurd List.mem_cons_self hn, fun piece hp hn => ?_⟩
        exact List.mem_cons_of_mem _ (hrest piece hp hn)
      · have hkeep : (if (c == '\\') = true then '/' else c) = c := by simp [hback]
        rw [Text.replaceChars, List.map_cons, hkeep, ← Text.replaceChars,
          Text.splitAt_cons_of_not_sep (by simpa using hslash) hb'] at hb
        obtain ⟨rfl, rfl⟩ := List.cons.inj hb
        refine ⟨fun hn => ?_, hrest⟩
        rw [hfirst fun h => hn (List.mem_cons_of_mem _ h)]

/-- A segment without backslashes stays a segment when backslashes are written as slashes. -/
lemma mem_segments_normalize {path : String} {segment : Text} (h : segment ∈ segments path)
    (hs : '\\' ∉ segment) : segment ∈ segments (normalize path) := by
  obtain ⟨a, as, ha⟩ := List.exists_cons_of_ne_nil (segments_ne_nil path)
  obtain ⟨b, bs, hb⟩ := List.exists_cons_of_ne_nil (segments_ne_nil (normalize path))
  have hnormal := hb
  rw [segments, normalize, String.toList_ofList] at hnormal
  obtain ⟨hfirst, hrest⟩ := splitAt_replaceChars ha hnormal
  rw [ha] at h
  rw [hb]
  rcases List.mem_cons.1 h with rfl | h
  · rw [hfirst hs]
    exact List.mem_cons_self
  · exact List.mem_cons_of_mem _ (hrest segment h hs)

lemma ofSegment?_cases {segment : Text} {part : Component} (h : Component.ofSegment? segment = some part) :
    part = .parent ∧ segment = ['.', '.'] ∨ part = .name segment := by
  unfold Component.ofSegment? at h
  split at h
  · cases h
  · split at h
    · next hparent => exact .inl ⟨(Option.some.inj h).symm, hparent⟩
    · exact .inr (Option.some.inj h).symm

lemma parent_mem_further {segments : List Text} : .parent ∈ further segments ↔ ['.', '.'] ∈ segments := by
  constructor
  · intro h
    obtain ⟨segment, hs, hpart⟩ := List.mem_filterMap.1 h
    rcases ofSegment?_cases hpart with ⟨_, rfl⟩ | hname
    · exact hs
    · cases hname
  · intro h
    exact List.mem_filterMap.2 ⟨_, h, by simp [Component.ofSegment?]⟩

lemma root_notMem_further (segments : List Text) : .root ∉ further segments := by
  intro h
  obtain ⟨segment, _, hpart⟩ := List.mem_filterMap.1 h
  rcases ofSegment?_cases hpart with ⟨hparent, _⟩ | hname
  · cases hparent
  · cases hname

lemma parent_mem_components {path : String} : .parent ∈ components path ↔ ['.', '.'] ∈ segments path := by
  obtain ⟨first, rest, hs⟩ := List.exists_cons_of_ne_nil (segments_ne_nil path)
  rw [components_eq hs, hs, List.mem_append, parent_mem_further, List.mem_cons]
  refine or_congr_left ?_
  unfold leading Component.ofSegment?
  grind

lemma root_mem_components {path : String} : .root ∈ components path ↔ isAbsolute path = true := by
  obtain ⟨first, rest, hs⟩ := List.exists_cons_of_ne_nil (segments_ne_nil path)
  rw [isAbsolute_iff hs, components_eq hs, List.mem_append, or_iff_left (root_notMem_further rest)]
  unfold leading Component.ofSegment?
  grind

lemma components_eq_nil {path : String} : components path = [] ↔ path = "" := by
  obtain ⟨first, rest, hs⟩ := List.exists_cons_of_ne_nil (segments_ne_nil path)
  constructor
  · intro h
    rw [components_eq hs, List.append_eq_nil_iff, Option.toList_eq_nil_iff] at h
    have hempty : first = [] ∧ rest = [] := by
      unfold leading Component.ofSegment? at h
      grind
    exact segments_eq_nil_cons_nil (hs.trans (by rw [hempty.1, hempty.2]))
  · rintro rfl
    rfl

lemma descends_iff {part : Component} : part.descends = true ↔ part ≠ .root ∧ part ≠ .parent := by
  cases part <;> simp [Component.descends]

lemma normalize_eq_empty {path : String} : normalize path = "" ↔ path = "" := by
  rw [normalize, String.ofList_eq_empty_iff, Text.replaceChars, List.map_eq_nil_iff, String.toList_eq_nil_iff]

lemma isWorkspaceRelative_iff_normalize {path : String} : isWorkspaceRelative path = true ↔
    path ≠ "" ∧ isAbsolute (normalize path) = false ∧ ['.', '.'] ∉ segments (normalize path) := by
  have hdescend : (∀ part ∈ components (normalize path), part.descends = true) ↔
      .root ∉ components (normalize path) ∧ .parent ∉ components (normalize path) := by
    simp only [descends_iff]
    grind
  simp only [isWorkspaceRelative, Bool.and_eq_true, List.all_eq_true, Bool.not_eq_true', List.isEmpty_eq_false_iff]
  rw [hdescend, root_mem_components, parent_mem_components, Bool.not_eq_true, Ne, components_eq_nil, normalize_eq_empty]

/-- Does the character divide segments, on whichever system the path was written? -/
def isSlash (c : Char) : Bool := c == '/' || c == '\\'

lemma segments_normalize (path : String) : segments (normalize path) = Text.splitAt isSlash path.toList := by
  rw [segments, normalize, String.toList_ofList]
  induction path.toList with
  | nil => rfl
  | cons c t ih =>
    rw [Text.replaceChars, List.map_cons, ← Text.replaceChars]
    by_cases hc : isSlash c = true
    · have hslash : (if (c == '\\') = true then '/' else c) = '/' := by
        simp only [isSlash, Bool.or_eq_true, beq_iff_eq] at hc
        rcases hc with rfl | rfl <;> rfl
      rw [hslash, Text.splitAt_cons_of_sep (by simp), Text.splitAt_cons_of_sep hc, ih]
    · simp only [isSlash, Bool.or_eq_true, beq_iff_eq, not_or] at hc
      obtain ⟨piece, pieces, hp⟩ := List.exists_cons_of_ne_nil (Text.splitAt_ne_nil isSlash t)
      have hkeep : (if (c == '\\') = true then '/' else c) = c := by simp [hc.2]
      rw [hkeep, Text.splitAt_cons_of_not_sep (by simpa using hc.1) (ih.trans hp),
        Text.splitAt_cons_of_not_sep (by simp [isSlash, hc.1, hc.2]) hp]

lemma isAbsolute_normalize (path : String) :
    isAbsolute (normalize path) = true ↔ ∃ c, path.toList.head? = some c ∧ isSlash c = true := by
  rw [isAbsolute, normalize, String.toList_ofList, Text.replaceChars, List.head?_map]
  cases path.toList.head? with
  | none => simp
  | some c => by_cases hc : c = '\\' <;> simp [hc, isSlash]

/-- A path names something below a workspace exactly if it is not empty, does not start with a slash of
either kind and has no parent segment between slashes of either kind. -/
theorem isWorkspaceRelative_iff {path : String} : isWorkspaceRelative path = true ↔
    path ≠ "" ∧ (∀ c, path.toList.head? = some c → isSlash c = false) ∧
      ['.', '.'] ∉ Text.splitAt isSlash path.toList := by
  have hhead : isAbsolute (normalize path) = false ↔ ∀ c, path.toList.head? = some c → isSlash c = false := by
    rw [← Bool.not_eq_true, isAbsolute_normalize]
    simp
  rw [isWorkspaceRelative_iff_normalize, hhead, segments_normalize]

theorem not_absolute_of_relative {path : String} (h : isWorkspaceRelative path = true) :
    isAbsolute path = false := by
  have hhead := (isWorkspaceRelative_iff.1 h).2.1
  by_contra hc
  rw [Bool.not_eq_false, isAbsolute, beq_iff_eq] at hc
  exact absurd (hhead _ hc) (by decide)

/-- A path below a workspace is made of names. -/
theorem further_of_relative {path : String} (h : isWorkspaceRelative path = true) :
    ∃ names, further (segments path) = List.map Component.name names := by
  have hparent := (isWorkspaceRelative_iff_normalize.1 h).2.2
  have hnames : ∀ part ∈ further (segments path), ∃ n, part = .name n := by
    intro part hp
    obtain ⟨segment, hs, hpart⟩ := List.mem_filterMap.1 hp
    rcases ofSegment?_cases hpart with ⟨_, rfl⟩ | hname
    · exact absurd (mem_segments_normalize hs (by decide)) hparent
    · exact ⟨segment, hname⟩
  generalize further (segments path) = parts at hnames
  induction parts with
  | nil => exact ⟨[], rfl⟩
  | cons part parts ih =>
    rw [List.forall_mem_cons] at hnames
    obtain ⟨n, rfl⟩ := hnames.1
    obtain ⟨names, rfl⟩ := ih hnames.2
    exact ⟨n :: names, rfl⟩

/-- The path has the components of the root and then only names. The empty root has no component, so there
the path may start where it stands. -/
def Below (root path : String) : Prop :=
  ∃ lead names, components path = components root ++ lead ++ List.map Component.name names ∧
    (lead = [] ∨ root = "" ∧ lead = [.current])

theorem below_join (root : String) {path : String} (h : isWorkspaceRelative path = true) :
    Below root (join root path) := by
  have habs := not_absolute_of_relative h
  obtain ⟨names, hnames⟩ := further_of_relative h
  by_cases hroot : root = ""
  · subst hroot
    obtain ⟨first, rest, hs⟩ := List.exists_cons_of_ne_nil (segments_ne_nil path)
    have hhead := isAbsolute_iff hs
    rw [habs] at hhead
    have hfirst : first = [] → rest = [] := by simpa using hhead
    rw [join_empty, Below, components_eq hs]
    rw [hs] at hnames
    have hempty : components "" = [] := rfl
    unfold leading
    split
    · next hf =>
      exact ⟨[], [], by simp [hfirst hf, hempty, further], .inl rfl⟩
    · split
      · next hdot =>
        have hskip : Component.ofSegment? ['.'] = none := by simp [Component.ofSegment?]
        rw [further_cons, hdot, hskip, Option.toList_none, List.nil_append] at hnames
        exact ⟨[.current], names, by simp [hempty, hnames], .inr ⟨rfl, rfl⟩⟩
      · refine ⟨[], names, ?_, .inl rfl⟩
        rw [hempty, ← hnames, further_cons]
        rfl
  · exact ⟨[], names, by rw [components_join hroot habs, hnames, List.append_nil], .inl rfl⟩

end Workspace

end Path
end Autofix
