import Mathlib.Tactic.Common
import Autofix.Fix
import Autofix.Proofs.Text.Byte

/-! What the id of a fix tells. An id is a hash of one text in which marks stand between names, paths and texts. The
texts may hold line ends, which are marks too; still each text reads in one way, since after a text comes the last line
end before the next NUL. -/
namespace Autofix

namespace Text
variable {mark : Char} {a a' b b' : Text}

/-- A text is parted in one way at the first mark. -/
lemma append_first_mark_inj (ha : mark ∉ a) (ha' : mark ∉ a') (h : a ++ mark :: b = a' ++ mark :: b') :
    a = a' ∧ b = b' := by
  rcases List.append_eq_append_iff.1 h with ⟨rest, rfl, hrest⟩ | ⟨rest, rfl, hrest⟩
  · cases rest with
    | nil => exact ⟨(List.append_nil a).symm, (List.cons.inj hrest).2⟩
    | cons c rest =>
      obtain ⟨rfl, _⟩ := List.cons.inj hrest
      simp at ha'
  · cases rest with
    | nil => exact ⟨List.append_nil a', (List.cons.inj hrest).2.symm⟩
    | cons c rest =>
      obtain ⟨rfl, _⟩ := List.cons.inj hrest
      simp at ha

/-- And in one way at the last. -/
lemma append_last_mark_inj (hb : mark ∉ b) (hb' : mark ∉ b') (h : a ++ mark :: b = a' ++ mark :: b') :
    a = a' ∧ b = b' := by
  have hrev := congrArg List.reverse h
  simp only [List.reverse_append, List.reverse_cons, List.append_assoc, List.singleton_append] at hrev
  obtain ⟨hback, hfront⟩ := append_first_mark_inj (by simpa using hb) (by simpa using hb') hrev
  exact ⟨List.reverse_inj.1 hfront, List.reverse_inj.1 hback⟩

end Text

namespace Fix

section Bytes

lemma toList_loop_eq (bytes : ByteArray) (i : Nat) (read : List UInt8) :
    ByteArray.toList.loop bytes i read = read.reverse ++ bytes.data.toList.drop i := by
  fun_induction ByteArray.toList.loop bytes i read with
  | case1 i read hlt ih =>
    have hlen : i < bytes.data.toList.length := by simpa using hlt
    have hget : bytes.get! i = bytes.data.toList[i] := by
      have hdata : bytes.get! i = bytes.data[i]! := by
        cases bytes
        rfl
      rw [hdata, getElem!_pos bytes.data i hlt, Array.getElem_toList]
    rw [ih, List.drop_eq_getElem_cons hlen, hget]
    simp
  | case2 i read hlt =>
    rw [List.drop_eq_nil_of_le (by simpa using Nat.le_of_not_lt hlt)]
    simp

theorem textBytes_inj {t u : Text} : textBytes t = textBytes u ↔ t = u := by
  refine ⟨fun h => ?_, congrArg textBytes⟩
  simp only [textBytes, ByteArray.toList, toList_loop_eq] at h
  have hdata : (String.ofList t).toUTF8.data = (String.ofList u).toUTF8.data := by simpa using h
  exact String.ofList_injective (String.toByteArray_inj.1 (ByteArray.ext hdata))

lemma hexDigit_inj : ∀ m < 16, ∀ n < 16, Json.hexDigit m = Json.hexDigit n → m = n := by decide

lemma hexadecimal_inj {bytes bytes' : List UInt8} : hexadecimal bytes = hexadecimal bytes' ↔ bytes = bytes' := by
  refine ⟨fun h => ?_, congrArg hexadecimal⟩
  induction bytes generalizing bytes' with
  | nil => cases bytes' with
    | nil => rfl
    | cons b rest => cases h
  | cons b rest ih => cases bytes' with
    | nil => cases h
    | cons b' rest' =>
      simp only [hexadecimal, List.flatMap_cons, List.cons_append, List.nil_append, List.cons.injEq] at h
      have hb := b.toNat_lt
      have hb' := b'.toNat_lt
      have hhigh := hexDigit_inj _ (by omega) _ (by omega) h.1
      have hlow := hexDigit_inj _ (by omega) _ (by omega) h.2.1
      rw [ih h.2.2, UInt8.toNat_inj.1 (show b.toNat = b'.toNat by omega)]

lemma take_hexadecimal (bytes : List UInt8) (n : Nat) :
    (hexadecimal bytes).take (2 * n) = hexadecimal (bytes.take n) := by
  induction n generalizing bytes with
  | zero => rfl
  | succ n ih =>
    cases bytes with
    | nil => rfl
    | cons b rest => exact congrArg (_ :: _ :: ·) (ih rest)

/-- Ids are as good as the hashes that they are cut from: the same exactly if these begin with the same eight bytes. -/
theorem stableId_eq_iff {p p' i i' : String} {cs cs' : List Change} :
    stableId p i cs = stableId p' i' cs' ↔
      (Blake3.hash (textBytes (stamp p i cs))).take 8 = (Blake3.hash (textBytes (stamp p' i' cs'))).take 8 := by
  have hcut : ∀ bytes, (hexadecimal bytes).take 16 = hexadecimal (bytes.take 8) := fun bytes => take_hexadecimal bytes 8
  unfold stableId
  generalize Blake3.hash (textBytes (stamp p i cs)) = hash
  generalize Blake3.hash (textBytes (stamp p' i' cs')) = hash'
  rw [String.ofList_inj, List.append_cancel_left_eq, hcut, hcut, hexadecimal_inj]

end Bytes

section Stamps
variable {p p' i i' : String} {cs cs' : List Change} {new new' : Text}

/-- What an id depends on in a change: neither lines nor columns, and the path as it is written with slashes. -/
def substance (c : Change) : String × String × String := (Path.normalize c.filePath, c.expected, c.replacement)

/-- The path holds no mark, and the texts hold none of those that part them. -/
structure FreeOfMarks (c : Change) : Prop where
  newline : '\n' ∉ c.filePath.toList
  path : '\x00' ∉ c.filePath.toList
  expected : '\x00' ∉ c.expected.toList
  replacement : '\x00' ∉ c.replacement.toList

instance (c : Change) : Decidable (FreeOfMarks c) :=
  decidable_of_iff ('\n' ∉ c.filePath.toList ∧ '\x00' ∉ c.filePath.toList ∧ '\x00' ∉ c.expected.toList ∧
    '\x00' ∉ c.replacement.toList) ⟨fun h => ⟨h.1, h.2.1, h.2.2.1, h.2.2.2⟩, fun h => ⟨h.1, h.2, h.3, h.4⟩⟩

lemma notMem_normalize {mark : Char} {path : String} (hmark : mark ≠ '/') (h : mark ∉ path.toList) :
    mark ∉ (Path.normalize path).toList := by
  rw [Path.normalize, String.toList_ofList, Text.replaceChars, List.mem_map]
  rintro ⟨c, hc, hreplaced⟩
  split at hreplaced
  · exact hmark hreplaced.symm
  · exact h (hreplaced ▸ hc)

/-- A stamp depends on nothing but the substance of the changes. -/
theorem stamp_congr (p i : String) (h : cs.map substance = cs'.map substance) : stamp p i cs = stamp p i cs' := by
  have hsubstance : ∀ cs : List Change, cs.flatMap changeStamp = (cs.map substance).flatMap fun s =>
      '\n' :: s.1.toList ++ '\x00' :: s.2.1.toList ++ '\x00' :: s.2.2.toList := fun cs => by
    rw [List.flatMap_map]
    rfl
  rw [stamp, stamp, hsubstance, hsubstance, h]

lemma stableId_congr (p i : String) (h : cs.map substance = cs'.map substance) :
    stableId p i cs = stableId p i cs' := by
  unfold stableId
  rw [stamp_congr p i h]

/-- After a text without NUL, the stamps of some changes are read in one way: where the text ends, and what the changes
are about. -/
theorem flatMap_changeStamp_inj (hcs : ∀ c ∈ cs, FreeOfMarks c) (hcs' : ∀ c ∈ cs', FreeOfMarks c)
    (hnew : '\x00' ∉ new) (hnew' : '\x00' ∉ new')
    (h : new ++ cs.flatMap changeStamp = new' ++ cs'.flatMap changeStamp) :
    new = new' ∧ cs.map substance = cs'.map substance := by
  induction cs generalizing cs' new new' with
  | nil =>
    cases cs' with
    | nil => exact ⟨by simpa using h, rfl⟩
    | cons c' rest' =>
      rw [List.flatMap_nil, List.append_nil] at h
      exact absurd (by simp [h, changeStamp]) hnew
  | cons c rest ih =>
    cases cs' with
    | nil =>
      rw [List.flatMap_nil, List.append_nil] at h
      exact absurd (by simp [← h, changeStamp]) hnew'
    | cons c' rest' =>
      rw [List.forall_mem_cons] at hcs hcs'
      have hstamp : ∀ (new : Text) (c : Change) (rest : List Change), new ++ (c :: rest).flatMap changeStamp =
          (new ++ '\n' :: (Path.normalize c.filePath).toList) ++ '\x00' :: (c.expected.toList ++ '\x00' ::
            (c.replacement.toList ++ rest.flatMap changeStamp)) := fun new c rest => by simp [changeStamp]
      have hnul : ∀ {new : Text} {c : Change}, '\x00' ∉ new → FreeOfMarks c →
          '\x00' ∉ new ++ '\n' :: (Path.normalize c.filePath).toList := fun hnew hc => by
        simp [hnew, notMem_normalize (by decide) hc.path]
      rw [hstamp, hstamp] at h
      obtain ⟨hfront, htexts⟩ := Text.append_first_mark_inj (hnul hnew hcs.1) (hnul hnew' hcs'.1) h
      obtain ⟨rfl, hpath⟩ := Text.append_last_mark_inj (notMem_normalize (by decide) hcs.1.newline)
        (notMem_normalize (by decide) hcs'.1.newline) hfront
      obtain ⟨hexpected, hothers⟩ := Text.append_first_mark_inj hcs.1.expected hcs'.1.expected htexts
      obtain ⟨hreplacement, hrest⟩ := ih hcs.2 hcs'.2 hcs.1.replacement hcs'.1.replacement hothers
      refine ⟨rfl, ?_⟩
      rw [List.map_cons, List.map_cons, hrest, substance, substance, String.toList_inj.1 hpath,
        String.toList_inj.1 hexpected, String.toList_inj.1 hreplacement]

theorem stamp_inj (hp : '\n' ∉ p.toList) (hp' : '\n' ∉ p'.toList) (hi : '\x00' ∉ i.toList) (hi' : '\x00' ∉ i'.toList)
    (hcs : ∀ c ∈ cs, FreeOfMarks c) (hcs' : ∀ c ∈ cs', FreeOfMarks c) :
    stamp p i cs = stamp p' i' cs' ↔ p = p' ∧ i = i' ∧ cs.map substance = cs'.map substance := by
  constructor
  · intro h
    simp only [stamp, List.append_assoc, List.cons_append] at h
    obtain ⟨hname, h⟩ := Text.append_first_mark_inj hp hp' h
    obtain ⟨hissue, hsame⟩ := flatMap_changeStamp_inj hcs hcs' hi hi' h
    exact ⟨String.toList_inj.1 hname, String.toList_inj.1 hissue, hsame⟩
  · rintro ⟨rfl, rfl, hsame⟩
    exact stamp_congr p i hsame

end Stamps

/-- An id identifies the edits of a fix up to a collision of hashes. The bytes that are hashed are the same exactly for
the same fixer, the same issue and the same list of paths (written with slashes), expected texts and replacements, if the
marks are kept apart: the fixer's name has no line end, the issue's id no NUL, paths have neither and texts no NUL. The
ids are the same exactly if the hashes begin with the same eight bytes. Lines and columns of the changes never matter. -/
theorem stableId_identifies (p p' i i' : String) (cs cs' : List Change) (hp : '\n' ∉ p.toList) (hp' : '\n' ∉ p'.toList)
    (hi : '\x00' ∉ i.toList) (hi' : '\x00' ∉ i'.toList) (hcs : ∀ c ∈ cs, FreeOfMarks c)
    (hcs' : ∀ c ∈ cs', FreeOfMarks c) :
    (textBytes (stamp p i cs) = textBytes (stamp p' i' cs') ↔
      p = p' ∧ i = i' ∧ cs.map substance = cs'.map substance) ∧
    (stableId p i cs = stableId p' i' cs' ↔
      (Blake3.hash (textBytes (stamp p i cs))).take 8 = (Blake3.hash (textBytes (stamp p' i' cs'))).take 8) ∧
    ∀ lines columns : Nat → Option Nat × Option Nat,
      stableId p i (cs.mapIdx fun k c => { c with
        startLine := (lines k).1, endLine := (lines k).2
        startColumn := (columns k).1, endColumn := (columns k).2 }) = stableId p i cs := by
  refine ⟨textBytes_inj.trans (stamp_inj hp hp' hi hi' hcs hcs'), stableId_eq_iff, fun lines columns => ?_⟩
  refine stableId_congr p i (List.ext_getElem? fun k => ?_)
  simp only [List.getElem?_map, List.getElem?_mapIdx, Option.map_map]
  rfl

/-- A replacement that goes on like the next change would: with the path written in another way and without lines the id
is the same; without the further line, other bytes are hashed. -/
theorem stableId_identifies_further_line :
    let written : Change := ⟨"src\\a.ts", "x", "y\nb.ts", some 1, some 1, none, none⟩
    let respelled : Change := .replace "src/a.ts" "x" "y\nb.ts"
    let shorter : Change := .replace "src/a.ts" "x" "y"
    let next : Change := .replace "b.ts" "" "z"
    stableId "formatting" "i1" [written, next] = stableId "formatting" "i1" [respelled, next] ∧
      textBytes (stamp "formatting" "i1" [written, next]) ≠ textBytes (stamp "formatting" "i1" [shorter, next]) := by
  intro written respelled shorter next
  obtain ⟨hsame, hid, _⟩ := stableId_identifies "formatting" "formatting" "i1" "i1" [written, next] [respelled, next]
    (by decide) (by decide) (by decide) (by decide) (by decide) (by decide)
  obtain ⟨hother, _, _⟩ := stableId_identifies "formatting" "formatting" "i1" "i1" [written, next] [shorter, next]
    (by decide) (by decide) (by decide) (by decide) (by decide) (by decide)
  have hbytes := hsame.2 ⟨rfl, rfl, by decide +kernel⟩
  have hhashes := congrArg (fun bytes => (Blake3.hash bytes).take 8) hbytes
  exact ⟨hid.2 hhashes, fun heq => absurd (hother.1 heq).2.2 (by decide +kernel)⟩

end Fix
end Autofix
