import Autofix.Apply.Shift
import Autofix.Fixer.Formatting
import Autofix.Proofs.Text.LineAt
import Autofix.Proofs.Text.Word

/-! What the judgement of a fixer protects. A change is judged by its own two texts, and what they have in common
is kept in every text where one of them is replaced by the other; a change that replaces a whole file is judged as
if the file were empty. -/
namespace Autofix
open Text

/-- A change that can be made either replaces the whole text, or a stretch of it that is the text it expects. -/
theorem Change.substitute?_eq_some {c : Change} {line : Option Nat} {t u : Text} (h : c.substitute? line t = some u) :
    (c.isWholeFile = true ∧ u = c.replacement.toList) ∨
      (c.isWholeFile = false ∧ ∃ front back, t = front ++ c.expected.toList ++ back ∧
        u = front ++ c.replacement.toList ++ back) := by
  rw [substitute?] at h
  cases hwhole : c.isWholeFile with
  | true =>
    rw [if_pos hwhole] at h
    exact .inl ⟨rfl, (Option.some.inj h).symm⟩
  | false =>
    rw [if_neg (by simp [hwhole])] at h
    obtain ⟨start, hstart, h⟩ := Option.bind_eq_some_iff.1 h
    split at h
    · obtain ⟨back, hback⟩ := (prefix_of_find? hstart).2
      refine .inr ⟨rfl, t.take start, back, ?_, ?_⟩
      · rw [List.append_assoc, hback, List.take_append_drop]
      · rw [← Option.some.inj h, splice, ← List.drop_drop, ← hback, List.drop_left]
    · cases h

namespace Formatting

lemma words_of_accepts {f : Fix} (hf : accepts f = true) {c : Change} (hc : c ∈ f.changes) :
    c.expected ≠ c.replacement ∧ words c.expected.toList = words c.replacement.toList := by
  simp only [accepts, Fix.isWellFormed, Bool.and_eq_true, List.all_eq_true, bne_iff_ne, beq_iff_eq] at hf
  exact ⟨(hf.1.2 c hc).2, hf.2 c hc⟩

/-- Texts with the same words have the same ink, and ink is made of the ink of the parts. -/
lemma ink_replaced {old new : Text} (h : words old = words new) (front back : Text) :
    ink (front ++ new ++ back) = ink (front ++ old ++ back) := by
  have hink : ink old = ink new := by rw [← flatten_words, ← flatten_words, h]
  simp only [ink_append, hink]

/-- A change of a fix that the formatting fixer accepts keeps the ink of every text in which it can be made, on
whatever line it is expected, if it replaces a part of the text. One that replaces the whole file leaves nothing but
blanks, and so takes away all ink that the file had. -/
theorem accepted_changes_keep_ink (f : Fix) (hf : accepts f = true) (c : Change) (hc : c ∈ f.changes)
    (line : Option Nat) (t u : Text) (h : c.substitute? line t = some u) :
    (c.isWholeFile = false → ink u = ink t) ∧
    (c.isWholeFile = true → u ≠ [] ∧ ink u = [] ∧ (ink u = ink t ↔ isBlankText t = true)) := by
  obtain ⟨hne, hwords⟩ := words_of_accepts hf hc
  rcases Change.substitute?_eq_some h with ⟨hwhole, rfl⟩ | ⟨hpart, front, back, rfl, rfl⟩
  · refine ⟨fun hpart => absurd (hwhole.symm.trans hpart) (by simp), fun _ => ?_⟩
    have hempty : c.expected = "" := by simpa [Change.isWholeFile] using hwhole
    have hblank : ink c.replacement.toList = [] := by
      rw [← flatten_words, ← hwords, hempty]
      rfl
    refine ⟨fun hnil => hne ?_, hblank, ?_⟩
    · rw [hempty, ← String.toList_inj, hnil]
      rfl
    · rw [hblank, eq_comm, ink_eq_nil]
  · exact ⟨fun _ => ink_replaced hwords front back, fun hwhole => absurd (hwhole.symm.trans hpart) (by simp)⟩

namespace Specimen

def squeeze : Change := ⟨"a.ts", "a \t b", "a b\r", some 2, some 2, none, none⟩

def blanking : Change := .wholeFile "a.ts" " "

def fixOf (c : Change) : Fix := ⟨"f1", "i1", "", [c], .hundredths 90, .low, "formatting"⟩

end Specimen

theorem accepted_changes_keep_ink_squeezed :
    Specimen.squeeze.substitute? (some 2) "x\na \t bc".toList = some "x\na b\rc".toList ∧
      ink "x\na b\rc".toList = ink "x\na \t bc".toList := by
  have h : Specimen.squeeze.substitute? (some 2) "x\na \t bc".toList = some "x\na b\rc".toList := by decide +kernel
  have hkeeps := accepted_changes_keep_ink (Specimen.fixOf Specimen.squeeze) (by decide +kernel) Specimen.squeeze
    List.mem_cons_self (some 2) _ _ h
  exact ⟨h, hkeeps.1 (by decide)⟩

/-- A fix that replaces a file by a blank is accepted, and the ink of the file is lost. -/
theorem blanking_is_accepted :
    accepts (Specimen.fixOf Specimen.blanking) = true ∧
      Specimen.blanking ∈ (Specimen.fixOf Specimen.blanking).changes ∧
      Specimen.blanking.substitute? none "x = 1\n".toList = some " ".toList ∧
      ink " ".toList ≠ ink "x = 1\n".toList := by
  decide +kernel

end Formatting
end Autofix
