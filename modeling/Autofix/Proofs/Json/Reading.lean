import Autofix.Json.Codec
import Autofix.Proofs.Digits

/-! Reading what was written. `Codec.Reads c v a` says that the codec `c` finds `a` in the text of the
value `v`, at any depth, after any blanks and before any text that can follow a value. -/
namespace Autofix.Json

/-- A text that can follow a value. -/
def Ends (tail : Text) : Prop :=
  ∀ c, tail.head? = some c → c = ',' ∨ c = ']' ∨ c = '\x7d' ∨ isSpace c = true

/-- A character that a value can start with. -/
def Starts (c : Char) : Prop := isSpace c = false ∧ c ≠ ',' ∧ c ≠ ']'

lemma ends_nil : Ends [] := by simp [Ends]

lemma ends_cons {c : Char} (h : c = ',' ∨ c = ']' ∨ c = '\x7d' ∨ isSpace c = true) (tail : Text) : Ends (c :: tail) := by
  rintro x ⟨⟩
  exact h

lemma isSpace_of_mem_lineBreak {depth : Option Nat} {c : Char} (h : c ∈ lineBreak depth) : isSpace c = true := by
  cases depth with
  | none => simp [lineBreak] at h
  | some n =>
    rw [lineBreak, List.mem_cons] at h
    rcases h with rfl | h
    · decide
    · rw [List.eq_of_mem_replicate h]
      decide

lemma ends_lineBreak {depth : Option Nat} {c : Char} (h : c = ',' ∨ c = ']' ∨ c = '\x7d' ∨ isSpace c = true)
    (tail : Text) : Ends (lineBreak depth ++ c :: tail) := by
  cases depth with
  | none => exact ends_cons h tail
  | some n => exact ends_cons (.inr (.inr (.inr (by decide)))) _

lemma skipSpace_append {blanks : Text} (hb : ∀ c ∈ blanks, isSpace c = true) {c : Char} (hc : isSpace c = false)
    (rest : Text) : skipSpace (blanks ++ c :: rest) = c :: rest := by
  rw [skipSpace, List.dropWhile_append_of_pos hb, List.dropWhile_cons_of_neg (by simp [hc])]

lemma skipSpace_cons {c : Char} (hc : isSpace c = false) (rest : Text) : skipSpace (c :: rest) = c :: rest := by
  rw [skipSpace, List.dropWhile_cons_of_neg (by simp [hc])]

section Texts
variable (depth : Option Nat)

lemma render_string (s : String) : render depth (.string s) = quote s := rfl

lemma render_natural (n : Nat) : render depth (.natural n) = digitsOf n := Nat.toList_repr

lemma render_array_cons (item : Json) (items : List Json) :
    render depth (.array (item :: items)) =
      '[' :: lineBreak (deeper depth) ++ render (deeper depth) item ++ renderItems (deeper depth) items ++
        lineBreak depth ++ [']'] := rfl

lemma render_object_cons (name : String) (value : Json) (fields : List (String × Json)) :
    render depth (.object ((name, value) :: fields)) =
      '\x7b' :: lineBreak (deeper depth) ++ quote name ++ colon depth ++ render (deeper depth) value ++
        renderFields (deeper depth) fields ++ lineBreak depth ++ ['\x7d'] := rfl

lemma renderItems_cons (item : Json) (items : List Json) :
    renderItems depth (item :: items) = ',' :: lineBreak depth ++ render depth item ++ renderItems depth items := rfl

lemma renderFields_cons (name : String) (value : Json) (fields : List (String × Json)) :
    renderFields depth ((name, value) :: fields) =
      ',' :: lineBreak depth ++ quote name ++ colon depth ++ render depth value ++ renderFields depth fields := rfl

lemma length_le_renderItems (items : List Json) : items.length ≤ (renderItems depth items).length := by
  induction items with
  | nil => simp
  | cons item items ih =>
    simp only [renderItems_cons, List.length_cons, List.length_append]
    omega

lemma length_le_renderFields (fields : List (String × Json)) :
    fields.length ≤ (renderFields depth fields).length := by
  induction fields with
  | nil => simp
  | cons field fields ih =>
    obtain ⟨name, value⟩ := field
    simp only [renderFields_cons, List.length_cons, List.length_append]
    omega

end Texts

section Strings

lemma readUnit_control {n : Nat} (h : n < 0x20) (rest : Text) :
    readUnit ('0' :: '0' :: hexDigit (n / 16) :: hexDigit (n % 16) :: rest) = .ok (n, rest) := by
  interval_cases n <;> rfl

lemma readEscape_control {c : Char} (h : c.toNat < 0x20) (rest : Text) :
    readEscape true ('u' :: '0' :: '0' :: hexDigit (c.toNat / 16) :: hexDigit (c.toNat % 16) :: rest) =
      .ok (c, rest) := by
  have hlow : isLowUnit c.toNat = false := by
    simp only [isLowUnit, Bool.and_eq_false_iff, decide_eq_false_iff_not]
    omega
  have hhigh : isHighUnit c.toNat = false := by
    simp only [isHighUnit, Bool.and_eq_false_iff, decide_eq_false_iff_not]
    omega
  simp [readEscape, readUnicode, readUnit_control h, bind, Except.bind, hlow, hhigh, Char.ofNat_toNat]

/-- A character stands for itself, or for what a backslash announces. -/
lemma escape_cases (c : Char) :
    (∃ u, escape c = '\\' :: u ∧ ∀ t, readEscape true (u ++ t) = .ok (c, t)) ∨
      escape c = [c] ∧ c ≠ '"' ∧ c ≠ '\\' ∧ ¬ c.toNat < 0x20 := by
  unfold escape
  by_cases h1 : c = '"'
  · exact .inl ⟨_, if_pos h1, fun t => by rw [h1]; rfl⟩
  rw [if_neg h1]
  by_cases h2 : c = '\\'
  · exact .inl ⟨_, if_pos h2, fun t => by rw [h2]; rfl⟩
  rw [if_neg h2]
  by_cases h3 : c = '\x08'
  · exact .inl ⟨_, if_pos h3, fun t => by rw [h3]; rfl⟩
  rw [if_neg h3]
  by_cases h4 : c = '\t'
  · exact .inl ⟨_, if_pos h4, fun t => by rw [h4]; rfl⟩
  rw [if_neg h4]
  by_cases h5 : c = '\n'
  · exact .inl ⟨_, if_pos h5, fun t => by rw [h5]; rfl⟩
  rw [if_neg h5]
  by_cases h6 : c = '\x0c'
  · exact .inl ⟨_, if_pos h6, fun t => by rw [h6]; rfl⟩
  rw [if_neg h6]
  by_cases h7 : c = '\r'
  · exact .inl ⟨_, if_pos h7, fun t => by rw [h7]; rfl⟩
  rw [if_neg h7]
  by_cases h8 : c.toNat < 0x20
  · exact .inl ⟨_, if_pos h8, readEscape_control h8⟩
  · exact .inr ⟨if_neg h8, h1, h2, h8⟩

lemma readChars_escape_append (c : Char) (fuel : Nat) (t : Text) :
    readChars true (fuel + 1) (escape c ++ t) =
      (readChars true fuel t).map fun p => (c :: p.1, p.2) := by
  rcases escape_cases c with ⟨u, hu, hread⟩ | ⟨hc, hquote, hslash, hcontrol⟩
  · rw [hu, List.cons_append, readChars]
    simp only [hread t, bind, Except.bind]
    cases readChars true fuel t <;> rfl
  · rw [hc, List.singleton_append, readChars.eq_def]
    simp only [hcontrol, if_false, bind, Except.bind]
    cases readChars true fuel t <;> rfl

lemma escape_ne_nil (c : Char) : escape c ≠ [] := by
  rcases escape_cases c with ⟨u, hu, _⟩ | ⟨hc, _⟩
  · simp [hu]
  · simp [hc]

lemma length_le_flatMap_escape (s : Text) : s.length ≤ (s.flatMap escape).length := by
  induction s with
  | nil => simp
  | cons c s ih =>
    have hc := List.length_pos_iff.2 (escape_ne_nil c)
    simp only [List.flatMap_cons, List.length_append, List.length_cons]
    omega

lemma readChars_flatMap_escape (s : Text) {fuel : Nat} (h : s.length < fuel) (tail : Text) :
    readChars true fuel (s.flatMap escape ++ '"' :: tail) = .ok (s, tail) := by
  induction s generalizing fuel with
  | nil =>
    obtain ⟨fuel, rfl⟩ := Nat.exists_eq_succ_of_ne_zero (Nat.ne_of_gt h)
    simp [readChars]
  | cons c s ih =>
    obtain ⟨fuel, rfl⟩ := Nat.exists_eq_succ_of_ne_zero (Nat.ne_of_gt (Nat.zero_lt_of_lt h))
    rw [List.flatMap_cons, List.append_assoc, Nat.succ_eq_add_one, readChars_escape_append,
      ih (by simpa using h)]
    rfl

theorem readStringTail_quoted (s : String) (tail : Text) :
    readStringTail (s.toList.flatMap escape ++ '"' :: tail) = .ok (s, tail) := by
  have hlen := length_le_flatMap_escape s.toList
  have hfuel : s.toList.length < (s.toList.flatMap escape ++ '"' :: tail).length + 1 := by
    simp only [List.length_append, List.length_cons]
    omega
  rw [readStringTail, readChars_flatMap_escape s.toList hfuel]
  simp [bind, Except.bind]

end Strings

section Numbers

lemma exponentFor_le {n : Nat} (h : n < 2 ^ 64) : Binary.exponentFor .double ⟨n, 1⟩ ≤ 12 := by
  have hlog : Nat.log2 n ≤ 63 := by
    by_cases h0 : n = 0
    · simp [h0]
    · exact Nat.le_of_lt_succ ((Nat.log2_lt h0).2 h)
  have hone : Nat.log2 1 = 0 := by decide
  unfold Binary.exponentFor
  simp only [Format.double, hone]
  split <;> omega

lemma round_ne_infinite {n : Nat} (h : n < 2 ^ 64) (negative : Bool) :
    Binary.round .double false ⟨n, 1⟩ ≠ .infinite negative := by
  have he := exponentFor_le h
  have hmax : Format.double.maxExponent = 971 := rfl
  unfold Binary.round
  dsimp only
  rw [hmax]
  split
  · simp
  · split
    · rw [if_neg (by omega)]
      simp
    · rw [if_neg (by omega)]
      simp

lemma not_overflows {n : Nat} (h : n < 2 ^ 64) : (Numeral.mk false (digitsOf n) true [] 0).overflows = false := by
  have hvalue : digitsValue (digitsOf n ++ []) = n := by simp
  have hlen := length_digitsOf_le (n := n) (k := 20) (by decide) (by omega)
  have hscaled : Ratio.scaled n 10 0 = ⟨n, 1⟩ := by simp [Ratio.scaled]
  simp only [Numeral.overflows, Numeral.toDecimal, Decimal.ofParts, Decimal.toBinary, hvalue, List.length_nil,
    Decimal.decimalBound, beq_eq_false_iff_ne]
  split
  · simp
  · split
    · omega
    · have := round_ne_infinite h false
      simpa [hscaled] using this

lemma readWhole_digitsOf (n : Nat) {tail : Text} (ht : ∀ c, tail.head? = some c → c.isDigit = false) :
    readWhole (digitsOf n ++ tail) = .ok (digitsOf n, tail) := by
  have hd : readDigits (digitsOf n ++ tail) = .ok (digitsOf n, tail) := by
    simp [readDigits, takeDigits_append (fun c hc => isDigit_of_mem_digitsOf hc) ht, digitsOf_ne_nil]
  simp only [readWhole, hd, bind, Except.bind]
  split
  · next heq =>
    exfalso
    by_cases h0 : n = 0
    · simp [h0, digitsOf] at heq
    · exact head_digitsOf_ne_zero (Nat.pos_of_ne_zero h0) (by simp [heq])
  · rfl

/-- A number of 64 bits is read up to a character that cannot belong to it. -/
theorem readNumber_digitsOf {n : Nat} (h : n < 2 ^ 64) {tail : Text} (ht : Ends tail) :
    readNumber (digitsOf n ++ tail) = .ok (⟨false, digitsOf n, true, [], 0⟩, tail) := by
  have hdigit : ∀ c, tail.head? = some c → c.isDigit = false ∧ c ≠ '.' ∧ c ≠ 'e' ∧ c ≠ 'E' := by
    intro c hc
    rcases ht c hc with rfl | rfl | rfl | hs
    · decide
    · decide
    · decide
    · simp only [isSpace, Bool.or_eq_true, beq_iff_eq] at hs
      rcases hs with ((rfl | rfl) | rfl) | rfl <;> decide
  have hwhole := readWhole_digitsOf n fun c hc => (hdigit c hc).1
  have hfraction : readFraction tail = .ok (none, tail) := by
    unfold readFraction
    split
    · exact absurd rfl (hdigit '.' rfl).2.1
    · rfl
  have hexponent : readExponent tail = .ok (none, tail) := by
    unfold readExponent
    split
    · exact absurd rfl (hdigit 'e' rfl).2.2.1
    · exact absurd rfl (hdigit 'E' rfl).2.2.2
    · rfl
  obtain ⟨c, u, hc⟩ := List.exists_cons_of_ne_nil (digitsOf_ne_nil n)
  have hfirst : c.isDigit = true := isDigit_of_mem_digitsOf (n := n) (by simp [hc])
  have hscan : scanNumber (digitsOf n ++ tail) = .ok (⟨false, digitsOf n, true, [], 0⟩, tail) := by
    unfold scanNumber
    split
    · next heq =>
      split at heq
      · next hminus =>
        rw [hc, List.cons_append] at hminus
        rw [(List.cons.inj hminus).1] at hfirst
        exact absurd hfirst (by decide)
      · obtain ⟨rfl, rfl⟩ := Prod.mk.inj heq
        simp only [hwhole, hfraction, hexponent, bind, Except.bind]
        rfl
  simp [readNumber, hscan, bind, Except.bind, not_overflows h]

end Numbers

/-- The codec finds a value in the text of another one. -/
structure Codec.Reads (c : Codec α) (v : Json) (a : α) : Prop where
  start : ∀ depth, ∃ x rest, render depth v = x :: rest ∧ Starts x
  read : ∀ depth blanks tail, (∀ x ∈ blanks, isSpace x = true) → Ends tail →
    c.read (blanks ++ (render depth v ++ tail)) = .ok (a, tail)

namespace Codec

lemma Reads.filterMap {c : Codec α} {v : Json} {a : α} (h : c.Reads v a) {f : α → Option β} {b : β}
    (hf : f a = some b) : (c.filterMap f).Reads v b := by
  refine ⟨h.start, fun depth blanks tail hb ht => ?_⟩
  simp [Codec.filterMap, h.read depth blanks tail hb ht, bind, Except.bind, hf]

lemma Reads.map {c : Codec α} {v : Json} {a : α} (h : c.Reads v a) (f : α → β) : (c.map f).Reads v (f a) :=
  h.filterMap rfl

theorem reads_string (s : String) : string.Reads (.string s) s := by
  refine ⟨fun depth => ⟨'"', _, rfl, by decide, by decide, by decide⟩, fun depth blanks tail hb ht => ?_⟩
  have htext : blanks ++ (render depth (.string s) ++ tail) =
      blanks ++ '"' :: (s.toList.flatMap escape ++ '"' :: tail) := by simp [render_string, quote]
  simp only [string, htext, skipSpace_append hb (c := '"') (by decide)]
  exact readStringTail_quoted s tail

lemma not_isSpace_of_isDigit {c : Char} (h : c.isDigit = true) : isSpace c = false ∧ c ≠ ',' ∧ c ≠ ']' := by
  refine ⟨?_, ?_, ?_⟩
  · by_contra hs
    simp only [isSpace, Bool.not_eq_false, Bool.or_eq_true, beq_iff_eq] at hs
    rcases hs with ((rfl | rfl) | rfl) | rfl <;> exact absurd h (by decide)
  · rintro rfl
    exact absurd h (by decide)
  · rintro rfl
    exact absurd h (by decide)

theorem reads_natural {n bound : Nat} (h : n < 2 ^ 64) (hb : n ≤ bound) : (natural bound).Reads (.natural n) n := by
  obtain ⟨c, u, hc⟩ := List.exists_cons_of_ne_nil (digitsOf_ne_nil n)
  have hfirst : c.isDigit = true := isDigit_of_mem_digitsOf (n := n) (by simp [hc])
  have hspace := not_isSpace_of_isDigit hfirst
  refine ⟨fun depth => ⟨c, u, by rw [render_natural, hc], hspace⟩, fun depth blanks tail hblank ht => ?_⟩
  have hnum := readNumber_digitsOf h ht
  have hvalue : (Numeral.mk false (digitsOf n) true [] 0).natural? = some n := by
    simpa [Numeral.natural?] using h
  rw [hc, List.cons_append] at hnum
  rw [render_natural]
  simp only [natural, hc, List.cons_append, skipSpace_append hblank hspace.1, startsNumber, hfirst, Bool.or_true,
    if_true, hnum, bind, Except.bind]
  rw [← hc, hvalue]
  simp [hb]

section Lists
variable {c : Codec α}

lemma nextItem_first (blanks : Text) (hb : ∀ x ∈ blanks, isSpace x = true) {x : Char} (hx : Starts x) (rest : Text) :
    nextItem true (blanks ++ x :: rest) = .ok (true, x :: rest) := by
  unfold nextItem
  rw [skipSpace_append hb hx.1]
  split
  · next heq => exact absurd (List.cons.inj heq).1 hx.2.2
  · next heq => exact absurd (List.cons.inj heq).1 hx.2.1
  · next heq => exact absurd heq (List.cons_ne_nil _ _)
  · rfl

lemma nextItem_further (blanks : Text) (hb : ∀ x ∈ blanks, isSpace x = true) {x : Char} (hx : Starts x) (rest : Text) :
    nextItem false (',' :: (blanks ++ x :: rest)) = .ok (true, x :: rest) := by
  unfold nextItem
  rw [skipSpace_cons (by decide)]
  simp only [Bool.false_eq_true, if_false]
  rw [skipSpace_append hb hx.1]
  split
  · next heq => exact absurd heq (List.cons_ne_nil _ _)
  · next heq => exact absurd (List.cons.inj heq).1 hx.2.2
  · rfl

lemma nextItem_close (blanks : Text) (hb : ∀ x ∈ blanks, isSpace x = true) (first : Bool) (tail : Text) :
    nextItem first (blanks ++ ']' :: tail) = .ok (false, ']' :: tail) := by
  unfold nextItem
  rw [skipSpace_append hb (by decide)]
  rfl

abbrev pushItem (c : Codec α) : List α → Reader (List α) :=
  fun items t => (c.read t).map fun (a, rest) => (a :: items, rest)

lemma ends_renderItems (depth outer : Option Nat) (items : List Json) (tail : Text) :
    Ends (renderItems depth items ++ (lineBreak outer ++ ']' :: tail)) := by
  cases items with
  | nil => exact ends_lineBreak (.inr (.inl rfl)) tail
  | cons item items =>
    rw [renderItems_cons]
    exact ends_cons (.inl rfl) _

/-- The items after the first one are read back, each from behind its comma up to what `ends_renderItems` shows
can follow it. -/
lemma foldItems_rest {vs : List Json} {as : List α} (h : List.Forall₂ c.Reads vs as) (depth outer : Option Nat)
    (fuel : Nat) (hf : vs.length < fuel) (items : List α) (tail : Text) :
    foldItems (pushItem c) fuel false items (renderItems depth vs ++ (lineBreak outer ++ ']' :: tail)) =
      .ok (as.reverse ++ items, tail) := by
  induction h generalizing fuel items with
  | nil =>
    obtain ⟨fuel, rfl⟩ := Nat.exists_eq_succ_of_ne_zero (Nat.ne_of_gt hf)
    have hclose := nextItem_close (lineBreak outer) (fun x hx => isSpace_of_mem_lineBreak hx) false tail
    simp [foldItems, renderItems, hclose, bind, Except.bind]
  | @cons v a vs as hv _ ih =>
    obtain ⟨fuel, rfl⟩ := Nat.exists_eq_succ_of_ne_zero (Nat.ne_of_gt (Nat.zero_lt_of_lt hf))
    obtain ⟨x, rest, hx, hs⟩ := hv.start depth
    have hnext := nextItem_further (lineBreak depth) (fun x hx => isSpace_of_mem_lineBreak hx) hs
      (rest ++ (renderItems depth vs ++ (lineBreak outer ++ ']' :: tail)))
    have hread := hv.read depth [] _ (by simp) (ends_renderItems depth outer vs tail)
    have htext : renderItems depth (v :: vs) ++ (lineBreak outer ++ ']' :: tail) =
        ',' :: (lineBreak depth ++ x :: (rest ++ (renderItems depth vs ++ (lineBreak outer ++ ']' :: tail)))) := by
      simp [renderItems_cons, hx]
    rw [hx, List.nil_append, List.cons_append] at hread
    rw [htext, foldItems]
    simp only [hnext, bind, Except.bind, if_true, pushItem, hread, Except.map]
    rw [ih fuel (by simpa using hf) (a :: items)]
    simp

theorem reads_list {vs : List Json} {as : List α} (h : List.Forall₂ c.Reads vs as) : (list c).Reads (.array vs) as := by
  cases h with
  | nil =>
    refine ⟨fun depth => ⟨'[', [']'], rfl, by decide, by decide, by decide⟩, fun depth blanks tail hb ht => ?_⟩
    have htext : blanks ++ (render depth (.array []) ++ tail) = blanks ++ '[' :: (']' :: tail) := rfl
    have hclose := nextItem_close [] (by simp) true tail
    rw [List.nil_append] at hclose
    simp only [list, htext, skipSpace_append hb (c := '[') (by decide), foldItems, hclose, bind, Except.bind]
    rfl
  | @cons v a vs as hv hvs =>
    refine ⟨fun depth => ⟨'[', _, rfl, by decide, by decide, by decide⟩, fun depth blanks tail hb ht => ?_⟩
    obtain ⟨x, rest, hx, hs⟩ := hv.start (deeper depth)
    have hlen := length_le_renderItems (deeper depth) vs
    have htext : blanks ++ (render depth (.array (v :: vs)) ++ tail) =
        blanks ++ '[' :: (lineBreak (deeper depth) ++ x :: (rest ++
          (renderItems (deeper depth) vs ++ (lineBreak depth ++ ']' :: tail)))) := by
      simp [render_array_cons, hx]
    have hnext := nextItem_first (lineBreak (deeper depth)) (fun x hx => isSpace_of_mem_lineBreak hx) hs
      (rest ++ (renderItems (deeper depth) vs ++ (lineBreak depth ++ ']' :: tail)))
    have hread := hv.read (deeper depth) [] _ (by simp) (ends_renderItems (deeper depth) depth vs tail)
    rw [hx, List.nil_append, List.cons_append] at hread
    have hrest := foldItems_rest hvs (deeper depth) depth (lineBreak (deeper depth) ++ x :: (rest ++
      (renderItems (deeper depth) vs ++ (lineBreak depth ++ ']' :: tail)))).length
      (by simp only [List.length_append, List.length_cons]; omega) [a] tail
    have hfold : foldItems (pushItem c) ((lineBreak (deeper depth) ++ x :: (rest ++
        (renderItems (deeper depth) vs ++ (lineBreak depth ++ ']' :: tail)))).length + 1) true []
        (lineBreak (deeper depth) ++ x :: (rest ++ (renderItems (deeper depth) vs ++
          (lineBreak depth ++ ']' :: tail)))) = .ok (as.reverse ++ [a], tail) := by
      rw [foldItems]
      simp only [hnext, bind, Except.bind, if_true, pushItem, hread, Except.map]
      exact hrest
    simp only [list, htext, skipSpace_append hb (c := '[') (by decide)]
    refine (congrArg (Except.map fun p => (p.1.reverse, p.2)) hfold).trans ?_
    simp [Except.map]

end Lists
end Codec

section Records
variable {σ : Type}

/-- The fields of an object, read into their slots one after another, lead from one record under
construction to another. -/
inductive Fills (slots : List (Slot σ)) : List (String × Json) → σ → σ → Prop
  | nil (s : σ) : Fills slots [] s s
  | cons {name : String} {value : Json} {fields : List (String × Json)} {s s' : σ} {f : σ → σ} (slot : Slot σ)
      (found : slots.find? (fun slot => slot.names.contains name) = some slot) (empty : slot.isSet s = false)
      (reads : slot.codec.Reads value f) (rest : Fills slots fields (f s) s') :
      Fills slots ((name, value) :: fields) s s'

lemma reads_slot {c : Codec α} {v : Json} {a : α} (h : c.Reads v a) (names : List String) (get : σ → Option α)
    (set : σ → Option α → σ) (required : Bool) :
    (Slot.of names get set required c).codec.Reads v fun s => set s (some a) :=
  h.map fun a s => set s (some a)

lemma ends_renderFields (depth outer : Option Nat) (fields : List (String × Json)) (tail : Text) :
    Ends (renderFields depth fields ++ (lineBreak outer ++ '\x7d' :: tail)) := by
  cases fields with
  | nil => exact ends_lineBreak (.inr (.inr (.inl rfl))) tail
  | cons field fields =>
    obtain ⟨name, value⟩ := field
    rw [renderFields_cons]
    exact ends_cons (.inl rfl) _

lemma nextName_first (blanks : Text) (hb : ∀ x ∈ blanks, isSpace x = true) (name : String) (rest : Text) :
    nextName true (blanks ++ (quote name ++ rest)) = .ok (some name, rest) := by
  have htext : blanks ++ (quote name ++ rest) = blanks ++ '"' :: (name.toList.flatMap escape ++ '"' :: rest) := by
    simp [quote]
  unfold nextName
  rw [htext, skipSpace_append hb (by decide)]
  simp [readStringTail_quoted, Except.map]

lemma nextName_further (blanks : Text) (hb : ∀ x ∈ blanks, isSpace x = true) (name : String) (rest : Text) :
    nextName false (',' :: (blanks ++ (quote name ++ rest))) = .ok (some name, rest) := by
  have htext : blanks ++ (quote name ++ rest) = blanks ++ '"' :: (name.toList.flatMap escape ++ '"' :: rest) := by
    simp [quote]
  unfold nextName
  rw [skipSpace_cons (by decide)]
  simp only [Bool.false_eq_true, if_false]
  rw [htext, skipSpace_append hb (by decide)]
  simp [readStringTail_quoted, Except.map]

lemma nextName_close (blanks : Text) (hb : ∀ x ∈ blanks, isSpace x = true) (first : Bool) (tail : Text) :
    nextName first (blanks ++ '\x7d' :: tail) = .ok (none, '\x7d' :: tail) := by
  unfold nextName
  rw [skipSpace_append hb (by decide)]
  rfl

lemma readField_value {slots : List (Slot σ)} {name : String} {slot : Slot σ} {s : σ} {value : Json} {f : σ → σ}
    (found : slots.find? (fun slot => slot.names.contains name) = some slot) (empty : slot.isSet s = false)
    (reads : slot.codec.Reads value f) (outer depth : Option Nat) {tail : Text} (ht : Ends tail) :
    readField slots s name (colon outer ++ (render depth value ++ tail)) = .ok (f s, tail) := by
  have hcolon : ∃ blanks, colon outer = ':' :: blanks ∧ ∀ x ∈ blanks, isSpace x = true := by
    cases outer with
    | none => exact ⟨[], rfl, by simp⟩
    | some n => exact ⟨[' '], rfl, by simp [isSpace]⟩
  obtain ⟨blanks, hc, hb⟩ := hcolon
  have hread := reads.read depth blanks tail hb ht
  have hskip : readColon (colon outer ++ (render depth value ++ tail)) = .ok (blanks ++ (render depth value ++ tail)) := by
    rw [hc, List.cons_append]
    simp [readColon, skipSpace_cons (c := ':') (by decide)]
  simp only [readField, found, empty, hskip, hread, bind, Except.bind, Except.map, Bool.false_eq_true, if_false]

lemma foldFields_rest {slots : List (Slot σ)} {fields : List (String × Json)} {s s' : σ} (h : Fills slots fields s s')
    (depth outer : Option Nat) {fuel : Nat} (hf : fields.length < fuel) (tail : Text) :
    foldFields (readField slots) fuel false s (renderFields depth fields ++ (lineBreak outer ++ '\x7d' :: tail)) =
      .ok (s', tail) := by
  induction h generalizing fuel with
  | nil s =>
    obtain ⟨fuel, rfl⟩ := Nat.exists_eq_succ_of_ne_zero (Nat.ne_of_gt hf)
    have hclose := nextName_close (lineBreak outer) (fun x hx => isSpace_of_mem_lineBreak hx) false tail
    simp [foldFields, renderFields, hclose, bind, Except.bind]
  | @cons name value fields s s' f slot found empty reads _ ih =>
    obtain ⟨fuel, rfl⟩ := Nat.exists_eq_succ_of_ne_zero (Nat.ne_of_gt (Nat.zero_lt_of_lt hf))
    have hnext := nextName_further (lineBreak depth) (fun x hx => isSpace_of_mem_lineBreak hx) name
      (colon depth ++ (render depth value ++ (renderFields depth fields ++ (lineBreak outer ++ '\x7d' :: tail))))
    have hfield := readField_value found empty reads depth depth (ends_renderFields depth outer fields tail)
    have htext : renderFields depth ((name, value) :: fields) ++ (lineBreak outer ++ '\x7d' :: tail) =
        ',' :: (lineBreak depth ++ (quote name ++ (colon depth ++ (render depth value ++
          (renderFields depth fields ++ (lineBreak outer ++ '\x7d' :: tail)))))) := by
      simp [renderFields_cons]
    rw [htext, foldFields]
    simp only [hnext, bind, Except.bind, hfield]
    exact ih (by simpa using hf)

theorem Codec.reads_record {slots : List (Slot σ)} {empty s : σ} {finish : σ → Option α} {a : α}
    {fields : List (String × Json)} (hne : fields ≠ []) (h : Fills slots fields empty s) (hs : finish s = some a) :
    (record slots empty finish).Reads (.object fields) a := by
  cases h with
  | nil => exact absurd rfl hne
  | @cons name value fields _ _ f slot found unset reads rest =>
    refine ⟨fun depth => ⟨'\x7b', _, rfl, by decide, by decide, by decide⟩, fun depth blanks tail hb ht => ?_⟩
    have hlen := length_le_renderFields (deeper depth) fields
    have htext : blanks ++ (render depth (.object ((name, value) :: fields)) ++ tail) =
        blanks ++ '\x7b' :: (lineBreak (deeper depth) ++ (quote name ++ (colon depth ++ (render (deeper depth) value ++
          (renderFields (deeper depth) fields ++ (lineBreak depth ++ '\x7d' :: tail)))))) := by
      simp [render_object_cons]
    have hnext := nextName_first (lineBreak (deeper depth)) (fun x hx => isSpace_of_mem_lineBreak hx) name
      (colon depth ++ (render (deeper depth) value ++
        (renderFields (deeper depth) fields ++ (lineBreak depth ++ '\x7d' :: tail))))
    have hfield := readField_value found unset reads depth (deeper depth)
      (ends_renderFields (deeper depth) depth fields tail)
    simp only [record, htext, skipSpace_append hb (c := '\x7b') (by decide)]
    rw [foldFields]
    simp only [hnext, bind, Except.bind, hfield]
    rw [foldFields_rest rest (deeper depth) depth (by simp only [List.length_append, List.length_cons]; omega)]
    simp [hs]

end Records

theorem Codec.Reads.readAll {c : Codec α} {v : Json} {a : α} (h : c.Reads v a) (depth : Option Nat) :
    readAll c.read (render depth v) = .ok a := by
  have hread := h.read depth [] [] (by simp) ends_nil
  rw [List.nil_append, List.append_nil] at hread
  simp [Json.readAll, hread, bind, Except.bind, skipSpace]

end Autofix.Json
