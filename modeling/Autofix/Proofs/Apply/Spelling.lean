import Autofix.Proofs.Apply.Shift
import Autofix.Proofs.Batch.Run
import Autofix.Proofs.Disk.Spelling

/-! Changes whose paths are spelled in another way. Files are found by the components of their paths, but
line shifts are kept by the path as a change writes it. So the spelling does not matter to a change as
long as no earlier change has moved its line under one spelling only. -/
namespace Autofix
variable {σ τ : Type} {root : String}

/-- Two spellings of a path that a workspace accepts and that lead to the same file. -/
structure Path.Respells (root path path' : String) : Prop where
  accepted : isWorkspaceRelative path = true ∧ isWorkspaceRelative path' = true
  alike : Alike (join root path) (join root path')
  blank : isBlankString path = isBlankString path'

/-- The same change, with the path as it was or in another spelling. -/
structure Change.Respelled (root : String) (c c' : Change) : Prop where
  edit : c' = { c with filePath := c'.filePath }
  path : c'.filePath = c.filePath ∨ Path.Respells root c.filePath c'.filePath

/-- The same fix, with the paths of some changes in another spelling. -/
structure Fix.Respelled (root : String) (f f' : Fix) : Prop where
  edit : f' = { f with changes := f'.changes }
  changes : List.Forall₂ (Change.Respelled root) f.changes f'.changes

lemma Change.Respelled.refl (root : String) (c : Change) : Change.Respelled root c c := ⟨rfl, .inl rfl⟩

lemma Fix.Respelled.refl (root : String) (f : Fix) : Fix.Respelled root f f :=
  ⟨rfl, List.forall₂_same.2 fun c _ => .refl root c⟩

section Shifts

/-- By how much the change, once it is made, moves a line of its file. -/
def Change.shift (k : Change) (line : Nat) : Int :=
  if !k.isWholeFile && (k.endLine.or k.startLine).any (· < line) then LineShifts.growth k else 0

/-- Does the change, once it is made, bear on where a line of its file is looked for? -/
def Change.moves (k : Change) (line : Nat) : Bool := k.isWholeFile || k.shift line != 0

/-- If the first change, which is made earlier, moves the line where the second is looked for, then both
have the same path in both spellings or in neither. Each change stands with its other spelling. -/
def SpelledAlike (k c : Change × Change) : Prop :=
  ∀ line ∈ c.1.startLine, k.1.moves line = true → (k.1.filePath = c.1.filePath ↔ k.2.filePath = c.2.filePath)

instance : DecidableRel SpelledAlike := fun k c =>
  inferInstanceAs (Decidable (∀ line ∈ c.1.startLine,
    k.1.moves line = true → (k.1.filePath = c.1.filePath ↔ k.2.filePath = c.2.filePath)))

namespace LineShifts
variable {s s' : LineShifts} {c c' : Change}

lemma mem_replaced_record (s : LineShifts) (k : Change) (path : String) :
    path ∈ (s.record k).replaced ↔ path ∈ s.replaced ∨ k.isWholeFile = true ∧ k.filePath = path := by
  unfold record
  split
  · next hk => simp [hk, eq_comm]
  · next hk =>
    split
    · simp [hk]
    · split <;> simp [hk]

lemma offset_record (s : LineShifts) (k : Change) (path : String) (line : Nat) :
    (s.record k).offset path line = (if k.filePath = path then k.shift line else 0) + s.offset path line := by
  unfold record Change.shift
  split
  · next hk => simp [hk, offset]
  · next hk =>
    split
    · next hnone => simp [hnone]
    · next after hafter =>
      split
      · next hzero => simp [hzero]
      · simp only [offset_eq_sum, List.filter_append, List.map_append, List.sum_append]
        by_cases hpath : k.filePath = path <;> by_cases hline : after < line <;>
          simp [hk, hafter, hpath, hline, Int.add_comm]

/-- The shifts of two runs look for a change on the same line, each under its own spelling. -/
def Agree (s s' : LineShifts) (c : Change × Change) : Prop :=
  ∀ line ∈ c.1.startLine, (c.1.filePath ∈ s.replaced ↔ c.2.filePath ∈ s'.replaced) ∧
    s.offset c.1.filePath line = s'.offset c.2.filePath line

lemma Agree.expectedLine? (h : Agree s s' (c, c')) (hc : c' = { c with filePath := c'.filePath }) :
    s.expectedLine? c = s'.expectedLine? c' := by
  have hstart : c'.startLine = c.startLine := by rw [hc]
  unfold LineShifts.expectedLine?
  rw [hstart]
  cases hline : c.startLine with
  | none => rfl
  | some line =>
    obtain ⟨hreplaced, hoffset⟩ := h line hline
    simp [currentLine?, hreplaced, hoffset]

/-- A change that is made in both runs leaves the shifts in agreement about the changes after it. -/
lemma Agree.record {later : Change × Change} (h : Agree s s' later) (hc : c' = { c with filePath := c'.filePath })
    (hlater : SpelledAlike (c, c') later) : Agree (s.record c) (s'.record c') later := by
  intro line hline
  obtain ⟨hreplaced, hoffset⟩ := h line hline
  have hwhole : c'.isWholeFile = c.isWholeFile := by rw [hc]; rfl
  have hshift : c'.shift line = c.shift line := by rw [hc]; rfl
  rw [mem_replaced_record, mem_replaced_record, offset_record, offset_record, hwhole, hshift, hreplaced, hoffset]
  cases hmoves : c.moves line with
  | true =>
    have hsame : c.filePath = later.1.filePath ↔ c'.filePath = later.2.filePath := hlater line hline hmoves
    rw [if_congr hsame rfl rfl, hsame]
    exact ⟨Iff.rfl, rfl⟩
  | false =>
    have hstill : c.isWholeFile = false ∧ c.shift line = 0 := by simpa [Change.moves] using hmoves
    simp [hstill]

end LineShifts
end Shifts

/-- On related paths, two ways to access files answer alike as long as their states are related. -/
structure Files.AnswerAlike (f : Files σ) (g : Files τ) (P : String → String → Prop) (R : σ → τ → Prop) : Prop where
  read : ∀ a b s u, P a b → R s u → (f.read a s).1 = (g.read b u).1 ∧ R (f.read a s).2 (g.read b u).2
  write : ∀ a b t s u, P a b → R s u → (f.write a t s).1 = (g.write b t u).1 ∧ R (f.write a t s).2 (g.write b t u).2

/-- Overlays are kept by components, so they stay the same under all spellings. -/
lemma Files.AnswerAlike.layered {f : Files σ} {g : Files τ} {P : String → String → Prop} {R : σ → τ → Prop}
    (h : f.AnswerAlike g P R) (hP : ∀ a b, P a b → Path.components a = Path.components b) :
    f.layered.AnswerAlike g.layered P fun s u => s.1 = u.1 ∧ R s.2 u.2 := by
  refine ⟨?_, ?_⟩
  · rintro a b ⟨o, s⟩ ⟨o', u⟩ hab ⟨rfl, hs⟩
    simp only [Files.layered, hP a b hab]
    cases Assoc.get? (Path.components b) o with
    | some t => exact ⟨rfl, rfl, hs⟩
    | none =>
      obtain ⟨hresult, hR⟩ := h.read a b s u hab hs
      exact ⟨hresult, rfl, hR⟩
  · rintro a b t ⟨o, s⟩ ⟨o', u⟩ hab ⟨rfl, hs⟩
    have hparts := hP a b hab
    refine ⟨rfl, ?_, hs⟩
    simp only [Files.layered, hparts]

/-- The same change, accepted under both paths, and the paths lead to related files. -/
structure Change.Matches (root : String) (P : String → String → Prop) (c c' : Change) : Prop where
  edit : c' = { c with filePath := c'.filePath }
  accepted : Path.isWorkspaceRelative c.filePath = true ∧ Path.isWorkspaceRelative c'.filePath = true
  files : P (Path.join root c.filePath) (Path.join root c'.filePath)

/-- Two attempts have ended alike: both were given up, for causes of the same weight, or neither was, and
the shifts agree about some changes to come. -/
structure EndAlike (R : σ → τ → Prop) (later : List (Change × Change)) (r : Except ApplyError Unit × LineShifts × σ)
    (r' : Except ApplyError Unit × LineShifts × τ) : Prop where
  failure : r.1.mapError ApplyError.isCatastrophic = r'.1.mapError ApplyError.isCatastrophic
  shifts : ∀ x ∈ later, LineShifts.Agree r.2.1 r'.2.1 x
  state : R r.2.2 r'.2.2

lemma ApplyError.isCatastrophic_ofRead (path path' : String) (source : IoError) :
    (ofRead path source).isCatastrophic = (ofRead path' source).isCatastrophic := by
  unfold ofRead
  split <;> rfl

section Changes
variable {f : Files σ} {g : Files τ} {P : String → String → Prop} {R : σ → τ → Prop} {s s' : LineShifts}
  {x : σ} {y : τ} {later : List (Change × Change)}

lemma applyChange_endAlike (h : f.AnswerAlike g P R) {c c' : Change} (hc : c.Matches root P c') (hR : R x y)
    (hs : LineShifts.Agree s s' (c, c')) (hlater : ∀ z ∈ later, LineShifts.Agree s s' z)
    (hspelled : ∀ z ∈ later, SpelledAlike (c, c') z) :
    EndAlike R later (applyChange f root c s x) (applyChange g root c' s' y) := by
  have hline := hs.expectedLine? hc.edit
  have hsubst : ∀ line t, c'.substitute? line t = c.substitute? line t := by
    intro line t
    rw [hc.edit]
    rfl
  obtain ⟨hread, hR₁⟩ := h.read _ _ x y hc.files hR
  unfold applyChange
  rw [resolve_eq_ok.2 ⟨hc.accepted.1, rfl⟩, resolve_eq_ok.2 ⟨hc.accepted.2, rfl⟩]
  dsimp only
  rcases hf : f.read (Path.join root c.filePath) x with ⟨r, x₁⟩
  rcases hg : g.read (Path.join root c'.filePath) y with ⟨r', y₁⟩
  rw [hf, hg] at hread hR₁
  obtain rfl : r = r' := hread
  cases r with
  | error source =>
    refine ⟨?_, hlater, hR₁⟩
    exact congrArg Except.error (ApplyError.isCatastrophic_ofRead _ _ source)
  | ok current =>
    dsimp only
    rw [hsubst, ← hline]
    cases c.substitute? (s.expectedLine? c) current with
    | none => exact ⟨rfl, hlater, hR₁⟩
    | some updated =>
      obtain ⟨hwrite, hR₂⟩ := h.write _ _ updated x₁ y₁ hc.files hR₁
      dsimp only
      rcases hf' : f.write (Path.join root c.filePath) updated x₁ with ⟨r, x₂⟩
      rcases hg' : g.write (Path.join root c'.filePath) updated y₁ with ⟨r', y₂⟩
      rw [hf', hg'] at hwrite hR₂
      obtain rfl : r = r' := hwrite
      cases r with
      | error source => exact ⟨rfl, hlater, hR₂⟩
      | ok _ => exact ⟨rfl, fun z hz => (hlater z hz).record hc.edit (hspelled z hz), hR₂⟩

theorem applyChanges_endAlike (h : f.AnswerAlike g P R) {changes changes' : List Change}
    (hchanges : List.Forall₂ (Change.Matches root P) changes changes') (hR : R x y)
    (hs : ∀ z ∈ changes.zip changes' ++ later, LineShifts.Agree s s' z)
    (hspelled : (changes.zip changes' ++ later).Pairwise SpelledAlike) :
    EndAlike R later (applyChanges f root changes s x) (applyChanges g root changes' s' y) := by
  induction hchanges generalizing s s' x y with
  | nil => exact ⟨rfl, hs, hR⟩
  | @cons c c' rest rest' hc _ ih =>
    rw [List.zip_cons_cons, List.cons_append] at hs hspelled
    obtain ⟨hfirst, hrest⟩ := List.pairwise_cons.1 hspelled
    rw [List.forall_mem_cons] at hs
    have hone := applyChange_endAlike h hc hR hs.1 hs.2 hfirst
    rw [applyChanges, applyChanges]
    rcases hf : applyChange f root c s x with ⟨r, s₁, x₁⟩
    rcases hg : applyChange g root c' s' y with ⟨r', s₁', y₁⟩
    rw [hf, hg] at hone
    obtain ⟨hfailure, hshifts, hstate⟩ := hone
    cases r with
    | ok _ =>
      cases r' with
      | ok _ => exact ih hstate hshifts hrest
      | error e' => cases hfailure
    | error e =>
      cases r' with
      | ok _ => cases hfailure
      | error e' => exact ⟨hfailure, fun z hz => hshifts z (List.mem_append_right _ hz), hstate⟩

end Changes
end Autofix
