import Mathlib.Tactic.Common
import Autofix.Apply.Files
import Autofix.Text.Basic

/-! Byte offsets and positions. A text cut at a position is, in bytes, cut at the byte offset of that
position, and the byte offsets on character boundaries are those of positions. -/
namespace Autofix.Text

section Sizes

@[simp] lemma byteSize_cons (c : Char) (t : Text) : byteSize (c :: t) = c.utf8Size + byteSize t := rfl

lemma byteSize_append (a b : Text) : byteSize (a ++ b) = byteSize a + byteSize b := by
  induction a with
  | nil => simp [byteSize]
  | cons c a ih => simp [ih, Nat.add_assoc]

lemma encodeText_append (a b : Text) : encodeText (a ++ b) = encodeText a ++ encodeText b := by
  simp [encodeText]

lemma size_encodeText (t : Text) : (encodeText t).size = byteSize t := by
  have hsize : (encodeText t).size = (String.ofList t).utf8ByteSize := String.size_toByteArray
  rw [hsize]
  induction t with
  | nil => rfl
  | cons c t ih =>
    rw [String.ofList_cons, String.utf8ByteSize_append, String.utf8ByteSize_singleton, ih String.size_toByteArray,
      byteSize_cons]

end Sizes

section Cuts
variable (t : Text) (p : Nat)

lemma extract_byteOffset : (encodeText t).extract 0 (byteOffset t p) = encodeText (t.take p) := by
  have hsize := size_encodeText (t.take p)
  conv_lhs => rw [← List.take_append_drop p t, encodeText_append]
  rw [byteOffset, List.take_append_drop, ← hsize, ByteArray.extract_append, ByteArray.extract_zero_size]
  simp

lemma extract_from_byteOffset :
    (encodeText t).extract (byteOffset t p) (encodeText t).size = encodeText (t.drop p) := by
  have hsize := size_encodeText (t.take p)
  have hsplit : encodeText t = encodeText (t.take p) ++ encodeText (t.drop p) := by
    rw [← encodeText_append, List.take_append_drop]
  have hfront : (encodeText (t.take p)).extract (encodeText (t.take p)).size (encodeText t).size = .empty :=
    ByteArray.extract_eq_empty_iff.2 (by omega)
  rw [hsplit, ByteArray.size_append] at hfront
  rw [byteOffset, ← hsize, hsplit, ByteArray.extract_append, ByteArray.size_append, hfront]
  simp

end Cuts

section Offsets
variable {t : Text} {b p q : Nat}

lemma byteOffset_le_of_le (t : Text) (h : p ≤ q) : byteOffset t p ≤ byteOffset t q := by
  have hsplit : t.take q = t.take p ++ (t.take q).drop p := by
    conv_lhs => rw [← List.take_append_drop p (t.take q), List.take_take, Nat.min_eq_left h]
  rw [byteOffset, byteOffset, hsplit, byteSize_append]
  exact Nat.le_add_right _ _

lemma byteOffset_lt_succ (h : p < t.length) : byteOffset t p < byteOffset t (p + 1) := by
  have hsplit : t.take (p + 1) = t.take p ++ [t[p]] := by simp
  have hpos := Char.utf8Size_pos t[p]
  rw [byteOffset, byteOffset, hsplit, byteSize_append]
  simp only [byteSize_cons]
  omega

lemma le_of_byteOffset_le (hp : p ≤ t.length) (h : byteOffset t p ≤ byteOffset t q) : p ≤ q := by
  by_contra hlt
  have hmono := byteOffset_le_of_le t (p := q + 1) (q := p) (by omega)
  have hstep := byteOffset_lt_succ (t := t) (p := q) (by omega)
  omega

lemma byteOffset_le_iff (hp : p ≤ t.length) : byteOffset t p ≤ byteOffset t q ↔ p ≤ q :=
  ⟨le_of_byteOffset_le hp, byteOffset_le_of_le t⟩

lemma byteOffset_le_byteSize (t : Text) (p : Nat) : byteOffset t p ≤ byteSize t := by
  conv_rhs => rw [← List.take_append_drop p t, byteSize_append]
  exact Nat.le_add_right _ _

@[simp] lemma byteOffset_zero (t : Text) : byteOffset t 0 = 0 := rfl

@[simp] lemma byteOffset_cons_succ (c : Char) (t : Text) (p : Nat) :
    byteOffset (c :: t) (p + 1) = c.utf8Size + byteOffset t p := rfl

/-- The position at a byte offset is the one with that byte offset, or the end if the offset is past the end. -/
theorem ofByteOffset?_eq_some_iff :
    ofByteOffset? t b = some p ↔ p ≤ t.length ∧ byteOffset t p = min b (byteSize t) := by
  fun_induction ofByteOffset? t b generalizing p with
  | case1 t =>
    rw [Option.some_inj, Nat.zero_min]
    constructor
    · rintro rfl
      exact ⟨Nat.zero_le _, rfl⟩
    · rintro ⟨hp, hoffset⟩
      exact (Nat.le_zero.1 ((byteOffset_le_iff hp).1 (Nat.le_of_eq hoffset))).symm
  | case2 b hpos => simp [byteOffset, byteSize, eq_comm]
  | case3 c rest b hpos hlt =>
    simp only [reduceCtorEq, false_iff, byteSize_cons]
    cases p with
    | zero =>
      have hinside : 0 < b := Nat.pos_of_ne_zero hpos
      rw [byteOffset_zero]
      omega
    | succ k =>
      rw [byteOffset_cons_succ]
      omega
  | case4 c rest b hpos hle ih =>
    simp only [Option.map_eq_some_iff, ih, List.length_cons, byteSize_cons]
    cases p with
    | zero =>
      have hsize := c.utf8Size_pos
      simp only [Nat.add_eq_zero_iff, byteOffset_zero]
      omega
    | succ k =>
      simp only [Nat.add_right_cancel_iff, exists_eq_right, byteOffset_cons_succ]
      omega

lemma byteOffset_of_ofByteOffset? (h : ofByteOffset? t b = some p) (hb : b ≤ byteSize t) :
    p ≤ t.length ∧ byteOffset t p = b := by
  have hoffset := ofByteOffset?_eq_some_iff.1 h
  rwa [Nat.min_eq_left hb] at hoffset

theorem ofByteOffset?_byteOffset (hp : p ≤ t.length) : ofByteOffset? t (byteOffset t p) = some p :=
  ofByteOffset?_eq_some_iff.2 ⟨hp, (Nat.min_eq_left (byteOffset_le_byteSize t p)).symm⟩

end Offsets
end Autofix.Text
