import Mathlib.Algebra.Notation.Prod
import Autofix.Fixer.Refactoring
import Autofix.Proofs.Apply.Landing
import Autofix.Proofs.Fixer.Protection

/-! The balance of brackets. It adds up over the parts of a text, so a part can be replaced by one of the same balance
without any difference to the whole; and what one change keeps is kept by every run of changes, by those that are
made and by those that turn out to be stale. -/
namespace Autofix
open Text

namespace Refactoring

section Parts

lemma excess_append (opening closing : Char) (a b : Text) :
    excess opening closing (a ++ b) = excess opening closing a + excess opening closing b := by
  simp only [excess, List.count_append]
  omega

lemma bracketBalance_append (a b : Text) : bracketBalance (a ++ b) = bracketBalance a + bracketBalance b := by
  simp only [bracketBalance, excess_append, Prod.mk_add_mk]

end Parts

section Changes
variable {f : Fix} {c : Change} {line : Option Nat} {t u : Text}

/-- The change replaces a part of a file, and belongs to a fix that the refactoring fixer accepts. -/
def Approved (c : Change) : Prop := c.expected ≠ "" ∧ ∃ f, accepts f = true ∧ c ∈ f.changes

lemma Approved.bracketBalance_eq (h : Approved c) :
    bracketBalance c.expected.toList = bracketBalance c.replacement.toList := by
  obtain ⟨_, f, hf, hc⟩ := h
  simp only [accepts, Bool.and_eq_true, List.all_eq_true, beq_iff_eq] at hf
  exact hf.2 c hc

/-- One change that can be made keeps the balance of the whole text. -/
theorem Approved.substitute? (h : Approved c) (hsubst : c.substitute? line t = some u) :
    bracketBalance u = bracketBalance t := by
  rcases Change.substitute?_eq_some hsubst with ⟨hwhole, _⟩ | ⟨_, front, back, rfl, rfl⟩
  · exact absurd (by simpa [Change.isWholeFile] using hwhole) h.1
  · simp only [bracketBalance_append, h.bracketBalance_eq]

lemma bracketBalance_foldlM {steps : List (Change × Option Nat)} (hsteps : ∀ step ∈ steps, Approved step.1)
    (h : steps.foldlM (fun t step => step.1.substitute? step.2 t) t = some u) :
    bracketBalance u = bracketBalance t := by
  induction steps generalizing t with
  | nil =>
    obtain rfl := Option.some.inj h
    rfl
  | cons step rest ih =>
    rw [List.forall_mem_cons] at hsteps
    rw [List.foldlM_cons] at h
    obtain ⟨v, hv, hrest⟩ := Option.bind_eq_some_iff.1 h
    exact (ih hsteps.2 hrest).trans (hsteps.1.substitute? hv)

end Changes

section Run
variable {σ : Type} {files : Files σ} {root place : String} {text : σ → Option Text} {c : Change}
  {changes : List Change} {fixes : List Fix} {t : Text}

/-- The file has a text of the same balance. -/
def Balanced (text : σ → Option Text) (t : Text) (s : σ) : Prop :=
  ∃ u, text s = some u ∧ bracketBalance u = bracketBalance t

/-- One change of the file, made or stale, keeps the balance. -/
lemma Balanced.applyChange (hkeeps : files.Keeps place text) (hc : Approved c) (hplace : resolve root c.filePath = .ok place)
    (shifts : LineShifts) {s : σ} (hs : Balanced text t s) :
    Balanced text t (Autofix.applyChange files root c shifts s).2.2 := by
  obtain ⟨u, hu, hbalance⟩ := hs
  obtain ⟨s₁, hread, hs₁⟩ := hkeeps.read hu
  cases hsubst : c.substitute? (shifts.expectedLine? c) u with
  | none =>
    rw [applyChange_of_stale hplace hread hsubst]
    exact ⟨u, hs₁, hbalance⟩
  | some v =>
    obtain ⟨s₂, hwrite, hs₂⟩ := hkeeps.write v hs₁
    rw [applyChange_of_write hplace hread hsubst hwrite]
    exact ⟨v, hs₂, (hc.substitute? hsubst).trans hbalance⟩

lemma Balanced.applyChanges (hkeeps : files.Keeps place text)
    (hchanges : ∀ c ∈ changes, Approved c ∧ resolve root c.filePath = .ok place) (shifts : LineShifts) {s : σ}
    (hs : Balanced text t s) : Balanced text t (Autofix.applyChanges files root changes shifts s).2.2 := by
  induction changes generalizing shifts s with
  | nil => exact hs
  | cons c rest ih =>
    rw [List.forall_mem_cons] at hchanges
    have hstep := hs.applyChange hkeeps hchanges.1.1 hchanges.1.2 shifts
    rw [Autofix.applyChanges]
    split
    · next heq =>
      rw [heq] at hstep
      exact ih hchanges.2 _ hstep
    · exact hstep

/-- A batch of fixes of the file keeps the balance, after each attempt and in the end. -/
lemma Balanced.applyEach (hkeeps : files.Keeps place text)
    (hfixes : ∀ f ∈ fixes, ∀ c ∈ f.changes, Approved c ∧ resolve root c.filePath = .ok place) (shifts : LineShifts)
    {s : σ} (hs : Balanced text t s) :
    (∀ attempt ∈ (Autofix.applyEach files root fixes shifts s).1, Balanced text t attempt.after) ∧
      Balanced text t (Autofix.applyEach files root fixes shifts s).2 := by
  induction fixes generalizing shifts s with
  | nil => exact ⟨fun _ h => (List.not_mem_nil h).elim, hs⟩
  | cons f rest ih =>
    rw [List.forall_mem_cons] at hfixes
    have hfirst : Balanced text t (f.apply files root shifts s).2.2 := hs.applyChanges hkeeps hfixes.1 shifts
    have hrest := ih hfixes.2 (f.apply files root shifts s).2.1 hfirst
    exact ⟨List.forall_mem_cons.2 ⟨hfirst, hrest.1⟩, hrest.2⟩

end Run

/-- Changes of fixes that the refactoring fixer accepts keep the balance of brackets of the whole file, if they replace
a part of it. One change keeps it whenever it can be made, on whatever line it is expected; a sequence of changes keeps
it, whichever lines they are expected on; and a batch of fixes of one file keeps it as well, after each fix and in the
end, whatever has been moved or changed before, and whether the fixes are applied, stale or broken off half-way. -/
theorem accepted_changes_keep_balance :
    (∀ f c line t u, accepts f = true → c ∈ f.changes → c.expected ≠ "" → c.substitute? line t = some u →
      bracketBalance u = bracketBalance t) ∧
    (∀ (steps : List (Change × Option Nat)) t u, (∀ step ∈ steps, Approved step.1) →
      steps.foldlM (fun t step => step.1.substitute? step.2 t) t = some u → bracketBalance u = bracketBalance t) ∧
    ∀ (σ : Type) (files : Files σ) root place text fixes shifts s t, files.Keeps place text → text s = some t →
      (∀ f ∈ fixes, accepts f = true ∧ ∀ c ∈ f.changes, c.expected ≠ "" ∧ resolve root c.filePath = .ok place) →
      (∀ attempt ∈ (applyEach files root fixes shifts s).1, Balanced text t attempt.after) ∧
        Balanced text t (applyEach files root fixes shifts s).2 := by
  refine ⟨fun f c line t u hf hc hpart h => ?_, fun steps t u hsteps h => ?_,
    fun σ files root place text fixes shifts s t hkeeps hs hfixes => ?_⟩
  · exact Approved.substitute? ⟨hpart, f, hf, hc⟩ h
  · exact bracketBalance_foldlM hsteps h
  · refine Balanced.applyEach hkeeps (fun f hf c hc => ?_) shifts ⟨t, hs, rfl⟩
    obtain ⟨haccepts, hchanges⟩ := hfixes f hf
    exact ⟨⟨(hchanges c hc).1, f, haccepts, hc⟩, (hchanges c hc).2⟩

namespace Specimen

def opening : Change := ⟨"a.ts", "if (a) \x7b", "while (a && b()) \x7b", some 1, some 1, none, none⟩

def element : Change := ⟨"a.ts", "g[0]", "g", some 2, some 2, none, none⟩

/-- A conditional becomes a loop over a list. -/
def loop : Fix := ⟨"f1", "i1", "", [opening, element], .hundredths 80, .medium, "refactoring"⟩

def half : Text := "if (a) \x7b\n  g[0];\n".toList

def memory : Memory := [(Path.components "/ws/a.ts", encodeText half)]

end Specimen

/-- In a text that lacks a bracket, by one change, by two, and by a batch that makes the same fix again. -/
theorem accepted_changes_keep_balance_loop :
    let made := "while (a && b()) \x7b\n  g;\n".toList
    let run := applyEach Memory.files "/ws" [Specimen.loop, Specimen.loop] {} Specimen.memory
    bracketBalance Specimen.half = (0, 1, 0) ∧
    (∃ u, Specimen.opening.substitute? (some 1) Specimen.half = some u ∧
      bracketBalance u = bracketBalance Specimen.half) ∧
    ([(Specimen.opening, some 1), (Specimen.element, none)].foldlM (fun t step => step.1.substitute? step.2 t)
      Specimen.half = some made ∧ bracketBalance made = bracketBalance Specimen.half) ∧
    run.1.map (fun attempt => attempt.outcome.isOk) = [true, false] ∧ Memory.text? "/ws/a.ts" run.2 = some made ∧
    Balanced (Memory.text? "/ws/a.ts") Specimen.half run.2 := by
  intro made run
  obtain ⟨hone, hmany, hbatch⟩ := accepted_changes_keep_balance
  have haccepts : accepts Specimen.loop = true := by decide +kernel
  have happroved : ∀ c ∈ Specimen.loop.changes, Approved c := fun c hc =>
    ⟨by revert c; decide, Specimen.loop, haccepts, hc⟩
  have hfirst : Specimen.opening.substitute? (some 1) Specimen.half =
      some "while (a && b()) \x7b\n  g[0];\n".toList := by decide +kernel
  have hboth : [(Specimen.opening, some 1), (Specimen.element, none)].foldlM
      (fun t step => step.1.substitute? step.2 t) Specimen.half = some made := by decide +kernel
  have hrun := hbatch Memory Memory.files "/ws" "/ws/a.ts" (Memory.text? "/ws/a.ts") [Specimen.loop, Specimen.loop] {}
    Specimen.memory Specimen.half (Memory.keeps _) (by decide +kernel) (by decide +kernel)
  refine ⟨by decide, ⟨_, hfirst, ?_⟩, ⟨hboth, ?_⟩, by decide +kernel, by decide +kernel, hrun.2⟩
  · exact hone Specimen.loop Specimen.opening (some 1) _ _ haccepts List.mem_cons_self (by decide) hfirst
  · refine hmany _ _ _ (fun step hstep => ?_) hboth
    simp only [List.mem_cons, List.not_mem_nil, or_false] at hstep
    rcases hstep with rfl | rfl
    · exact happroved _ List.mem_cons_self
    · exact happroved _ (List.mem_cons_of_mem _ List.mem_cons_self)

end Refactoring
end Autofix
