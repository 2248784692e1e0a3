import Autofix.Fixer.Registry
import Mathlib.Data.List.Induction
import Mathlib.Data.List.Nodup

/-! Which fixer answers. A registry keeps an index from types of issues to positions and rebuilds it with
each registration; what the index finds is what a look through all fixers in order finds. Of the fixers
that were registered under one name the last one counts, at the place of the first. -/
namespace Autofix.Registry

/-- The fixers that come with the program, by their names. -/
lemma map_name_builtin (parser : Parser) :
    (builtin parser).map Fixer.name = ["formatting", "imports", "documentation", "refactoring"] := rfl

section Index
variable (position : Nat) (index : Assoc String Nat) (type : String)

lemma get?_claim (claimed : String) :
    Assoc.get? type (claim position index claimed) =
      (Assoc.get? type index).or (if type = claimed then some position else none) := by
  unfold claim
  split
  · next owner h =>
    by_cases ht : type = claimed
    · simp [ht, h]
    · simp [ht]
  · next h =>
    rw [Assoc.get?_insert]
    by_cases ht : type = claimed
    · simp [ht, h]
    · simp [ht]

lemma get?_foldl_claim (types : List String) :
    Assoc.get? type (types.foldl (claim position) index) =
      (Assoc.get? type index).or (if types.contains type then some position else none) := by
  induction types generalizing index with
  | nil => simp
  | cons claimed types ih =>
    rw [List.foldl_cons, ih, get?_claim, Option.or_assoc]
    by_cases ht : type = claimed <;> simp [ht]

/-- The index holds the position of the first fixer that claims a type. -/
theorem get?_claimFrom (fixers : List Fixer) :
    Assoc.get? type (claimFrom position index fixers) =
      (Assoc.get? type index).or ((fixers.findIdx? fun f => f.types.contains type).map (· + position)) := by
  induction fixers generalizing position index with
  | nil => simp [claimFrom]
  | cons f fixers ih =>
    rw [claimFrom, ih, get?_foldl_claim, Option.or_assoc, List.findIdx?_cons]
    by_cases hf : type ∈ f.types
    · simp [hf]
    · simp [hf, Function.comp_def, Nat.add_assoc, Nat.add_comm 1 position]

end Index

/-- Looking up the index is looking through the fixers. -/
theorem fixerFor?_ofFixers (fixers : List Fixer) (issue : Issue) :
    (ofFixers fixers).fixerFor? issue = fixers.find? fun f => f.types.contains issue.type := by
  have hindex : Assoc.get? issue.type (ofFixers fixers).index =
      fixers.findIdx? fun f => f.types.contains issue.type := by
    simp [ofFixers, get?_claimFrom]
  have hscan : fixers.find? (fun f => f.types.contains issue.type) =
      (fixers.findIdx? fun f => f.types.contains issue.type).bind fun i => fixers[i]? :=
    List.find?_eq_bind_findIdx?_getElem?
  rw [hscan, fixerFor?, hindex]
  cases hfound : fixers.findIdx? fun f => f.types.contains issue.type with
  | none => rfl
  | some i =>
    rw [hfound] at hscan
    simp only [Option.bind_eq_bind, Option.bind_some] at hscan ⊢
    cases hf : (ofFixers fixers).fixers[i]? with
    | none => exact hf.symm
    | some f =>
      have hfixers : fixers[i]? = some f := hf
      rw [hfixers] at hscan
      have hclaims : f.canFix issue = true := List.find?_some (p := fun f : Fixer => f.types.contains issue.type) hscan
      simp [hclaims, hfixers]

section Placing
variable (f : Fixer) (fixers : List Fixer)

lemma map_name_place :
    (place f fixers).map Fixer.name =
      if f.name ∈ fixers.map Fixer.name then fixers.map Fixer.name else fixers.map Fixer.name ++ [f.name] := by
  induction fixers with
  | nil => simp [place]
  | cons g rest ih =>
    rw [place]
    by_cases hg : g.name = f.name
    · simp [hg]
    · have hg' : ¬ f.name = g.name := fun h => hg h.symm
      rw [if_neg hg, List.map_cons, ih, List.map_cons]
      by_cases hrest : f.name ∈ rest.map Fixer.name
      · rw [if_pos hrest, if_pos (List.mem_cons_of_mem _ hrest)]
      · have hnone : f.name ∉ g.name :: rest.map Fixer.name := by
          rw [List.mem_cons, not_or]
          exact ⟨hg', hrest⟩
        rw [if_neg hrest, if_neg hnone, List.cons_append]

lemma find?_name_place (name : String) :
    (place f fixers).find? (fun g => g.name == name) =
      if f.name = name then some f else fixers.find? fun g => g.name == name := by
  induction fixers with
  | nil => by_cases h : f.name = name <;> simp [place, h]
  | cons g rest ih =>
    rw [place]
    by_cases hg : g.name = f.name
    · by_cases h : f.name = name <;> simp [hg, h]
    · rw [if_neg hg, List.find?_cons, ih, List.find?_cons]
      by_cases h : f.name = name
      · have hgn : (g.name == name) = false := beq_eq_false_iff_ne.2 fun he => hg (he.trans h.symm)
        simp [h, hgn]
      · simp [h]

end Placing

section Steps
variable (r : Registry) (f : Fixer)

lemma names_register :
    (r.register f).names = if f.name ∈ r.names then r.names else r.names ++ [f.name] :=
  map_name_place f r.fixers

lemma get?_register (name : String) :
    (r.register f).get? name = if f.name = name then some f else r.get? name :=
  find?_name_place f r.fixers name

end Steps

lemma eraseDups_concat (names : List String) (name : String) :
    (names ++ [name]).eraseDups = if name ∈ names then names.eraseDups else names.eraseDups ++ [name] := by
  rw [List.eraseDups_append, List.removeAll, List.filter_singleton]
  by_cases h : name ∈ names <;> simp [h, List.eraseDups_cons]

section Runs
variable (fs : List Fixer)

lemma registerAll_concat (f : Fixer) : registerAll (fs ++ [f]) = (registerAll fs).register f := by
  simp [registerAll]

lemma registerAll_eq_ofFixers : registerAll fs = ofFixers (registerAll fs).fixers := by
  induction fs using List.reverseRecOn with
  | nil => rfl
  | append_singleton fs f _ =>
    rw [registerAll_concat]
    rfl

/-- A name stands where it was registered first. -/
theorem names_registerAll : (registerAll fs).names = (fs.map Fixer.name).eraseDups := by
  induction fs using List.reverseRecOn with
  | nil => rfl
  | append_singleton fs f ih =>
    rw [registerAll_concat, names_register, ih, List.map_append, List.map_singleton, eraseDups_concat]
    simp only [List.mem_eraseDups]

theorem nodup_names_registerAll : (registerAll fs).names.Nodup := by
  induction fs using List.reverseRecOn with
  | nil => simp [registerAll, names]
  | append_singleton fs f ih =>
    rw [registerAll_concat, names_register]
    split
    · exact ih
    · next h => exact ih.append (List.nodup_singleton _) (List.disjoint_singleton.2 h)

/-- A name stands for the fixer that was registered under it last. -/
theorem get?_registerAll (name : String) :
    (registerAll fs).get? name = fs.reverse.find? fun f => f.name == name := by
  induction fs using List.reverseRecOn with
  | nil => rfl
  | append_singleton fs f ih =>
    rw [registerAll_concat, get?_register, ih, List.reverse_concat, List.find?_cons]
    by_cases h : f.name = name
    · simp [h]
    · simp [h, beq_eq_false_iff_ne.2 h]

/-- A fixer is in the registry just when none was registered under its name after it. -/
theorem mem_fixers_registerAll (f : Fixer) :
    f ∈ (registerAll fs).fixers ↔ ∃ before after, fs = before ++ f :: after ∧ ∀ g ∈ after, g.name ≠ f.name := by
  have hget : f ∈ (registerAll fs).fixers ↔ (registerAll fs).get? f.name = some f := by
    constructor
    · intro hf
      have hsome : ((registerAll fs).get? f.name).isSome := List.find?_isSome.2 ⟨f, hf, by simp⟩
      obtain ⟨g, hg⟩ := Option.isSome_iff_exists.1 hsome
      have hname : g.name = f.name := by simpa using List.find?_some hg
      have hgf := List.inj_on_of_nodup_map (nodup_names_registerAll fs) (List.mem_of_find?_eq_some hg) hf hname
      rw [hg, hgf]
    · exact List.mem_of_find?_eq_some
  rw [hget, get?_registerAll, List.find?_eq_some_iff_append]
  constructor
  · rintro ⟨_, after, before, hfs, hnone⟩
    refine ⟨before.reverse, after.reverse, ?_, fun g hg => ?_⟩
    · rw [← fs.reverse_reverse, hfs]
      simp
    · simpa using hnone g (List.mem_reverse.1 hg)
  · rintro ⟨before, after, rfl, hnone⟩
    refine ⟨beq_self_eq_true f.name, after.reverse, before.reverse, by simp, fun g hg => ?_⟩
    simpa using hnone g (List.mem_reverse.1 hg)

/-- After any registrations the names in the registry are distinct and in the order of their first
registration, each name stands for the fixer registered under it last, and an issue is given to the first
fixer in that order that makes fixes for its type. So a type that only replaced fixers claimed is given to
nobody. -/
theorem registerAll_arbitrates :
    (registerAll fs).names.Nodup ∧ (registerAll fs).names = (fs.map Fixer.name).eraseDups ∧
    (∀ name, (registerAll fs).get? name = fs.reverse.find? fun f => f.name == name) ∧
    (∀ issue, (registerAll fs).fixerFor? issue =
      (registerAll fs).fixers.find? fun f => f.types.contains issue.type) ∧
    ∀ issue, (registerAll fs).fixerFor? issue = none ↔
      ∀ before f after, fs = before ++ f :: after → issue.type ∈ f.types → ∃ g ∈ after, g.name = f.name := by
  have hscan : ∀ issue, (registerAll fs).fixerFor? issue =
      (registerAll fs).fixers.find? fun f => f.types.contains issue.type := by
    intro issue
    rw [registerAll_eq_ofFixers fs, fixerFor?_ofFixers]
    rfl
  refine ⟨nodup_names_registerAll fs, names_registerAll fs, get?_registerAll fs, hscan, fun issue => ?_⟩
  rw [hscan, List.find?_eq_none]
  constructor
  · intro hnone before f after hfs htype
    by_contra hlast
    push Not at hlast
    exact hnone f ((mem_fixers_registerAll fs f).2 ⟨before, after, hfs, hlast⟩) (by simpa using htype)
  · intro hreplaced f hf htype
    obtain ⟨before, after, hfs, hlast⟩ := (mem_fixers_registerAll fs f).1 hf
    obtain ⟨g, hg, hname⟩ := hreplaced before f after hfs (by simpa using htype)
    exact hlast g hg hname

end Runs
end Autofix.Registry
