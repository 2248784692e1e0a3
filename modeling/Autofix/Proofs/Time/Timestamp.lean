import Autofix.Proofs.Digits
import Autofix.Time.Timestamp

/-! Points in time and their texts: a text that was written is read as the time it was written for. -/
namespace Autofix

lemma isBlank_of_isDigit {c : Char} (h : c.isDigit = true) : isBlank c = false := by
  have hc := Char.isDigit_iff_toNat.1 h
  have h0 : '0'.toNat = 48 := rfl
  have h9 : '9'.toNat = 57 := rfl
  simp only [isBlank, blankRanges, List.any_cons, List.any_nil, Bool.or_false, Bool.or_eq_false_iff,
    Bool.and_eq_false_iff, decide_eq_false_iff_not]
  omega

lemma Text.trimStart_cons {c : Char} (h : isBlank c = false) (t : Text) :
    Text.trimStart (c :: t) = c :: t := by
  simp [Text.trimStart, h]

namespace Date

lemma daysBeforeYear_yearOf_le (n : Int) : daysBeforeYear (yearOf n) ≤ n := by
  unfold yearOf
  dsimp only
  split
  · assumption
  · split
    · assumption
    · unfold daysBeforeYear at *
      omega

lemma inMonths_spec (month days : Nat) (lengths : List Nat) :
    month ≤ (inMonths month days lengths).1 ∧
      (lengths.take ((inMonths month days lengths).1 - month)).foldr (· + ·) 0 + (inMonths month days lengths).2 = days + 1 := by
  induction lengths generalizing month days with
  | nil => simp [inMonths]
  | cons length rest ih =>
    rw [inMonths]
    split
    · simp
    · next h =>
      obtain ⟨hm, hs⟩ := ih (month + 1) (days - length)
      have hk : (inMonths (month + 1) (days - length) rest).1 - month =
          (inMonths (month + 1) (days - length) rest).1 - (month + 1) + 1 := by omega
      refine ⟨by omega, ?_⟩
      rw [hk, List.take_succ_cons, List.foldr_cons]
      omega

theorem dayNumber_ofDayNumber (n : Int) : (ofDayNumber n).dayNumber = n := by
  have hy := daysBeforeYear_yearOf_le n
  obtain ⟨hm, hs⟩ := inMonths_spec 1 (n - daysBeforeYear (yearOf n)).toNat (monthLengths (yearOf n))
  simp only [ofDayNumber, dayNumber]
  omega

lemma bounds_of_isValid {d : Date} (h : d.isValid = true) : d.month < 10 ^ 2 ∧ d.day < 10 ^ 2 := by
  simp only [isValid, Bool.and_eq_true, decide_eq_true_eq] at h
  obtain ⟨⟨hm, hd⟩, hl⟩ := h
  have hle : ∀ k, (monthLengths d.year).getD k 0 ≤ 31 := by
    intro k
    have hall : ∀ x ∈ monthLengths d.year, x ≤ 31 := by
      unfold monthLengths
      split <;> simp
    rw [List.getD_eq_getElem?_getD]
    cases hk : (monthLengths d.year)[k]? with
    | none => simp
    | some x => exact hall x (List.mem_of_getElem? hk)
  have hmonth : d.month - 1 < 12 := by
    by_contra hlarge
    have hnone : (monthLengths d.year).getD (d.month - 1) 0 = 0 := by
      rw [List.getD_eq_getElem?_getD, List.getElem?_eq_none (by simpa [monthLengths] using hlarge)]
      rfl
    omega
  have := hle (d.month - 1)
  omega

end Date

namespace Timestamp

/-- A point in time that the calendar has a name for. A leap second stands at the end of a minute. -/
structure IsValid (t : Timestamp) : Prop where
  date : inCalendar (Date.ofDayNumber (t.seconds / secondsPerDay + Date.epochDay)) = true
  leap : t.nanos < nanosPerSecond ∨ t.nanos < 2 * nanosPerSecond ∧ t.seconds % 60 = 59

lemma isDigit_of_mem_padded {width n : Nat} {c : Char} (h : c ∈ padded width n) : c.isDigit = true := by
  rw [padded, List.mem_append] at h
  rcases h with h | h
  · rw [List.eq_of_mem_replicate h]
    decide
  · exact isDigit_of_mem_digitsOf h

lemma padded_ne_nil (width n : Nat) : padded width n ≠ [] := by
  simp [padded, digitsOf_ne_nil]

@[simp] lemma digitsValue_padded (width n : Nat) : digitsValue (padded width n) = n := by
  rw [padded, digitsValue_replicate_zero_append, digitsValue_digitsOf]

lemma length_padded {width n : Nat} (hw : 0 < width) (h : n < 10 ^ width) : (padded width n).length = width := by
  have := length_digitsOf_le hw h
  simp only [padded, List.length_append, List.length_replicate]
  omega

lemma trimStart_padded (width n : Nat) (rest : Text) :
    Text.trimStart (padded width n ++ rest) = padded width n ++ rest := by
  obtain ⟨c, u, hp⟩ := List.exists_cons_of_ne_nil (padded_ne_nil width n)
  have hmem : c ∈ padded width n := by simp [hp]
  have hc := isDigit_of_mem_padded hmem
  rw [hp, List.cons_append, Text.trimStart_cons (isBlank_of_isDigit hc)]

theorem readNumber?_padded {width n : Nat} (hw : 0 < width) (h : n < 10 ^ width) (rest : Text) :
    readNumber? width (padded width n ++ rest) = some (n, rest) := by
  have hl := length_padded hw h
  have htake : ((padded width n ++ rest).takeWhile Char.isDigit).take width = padded width n := by
    rw [List.takeWhile_append_of_pos fun c hc => isDigit_of_mem_padded hc, List.take_append_of_le_length (by omega),
      List.take_of_length_le (by omega)]
  have hne : (padded width n).isEmpty = false := by simp [padded_ne_nil]
  simp only [readNumber?, trimStart_padded, htake, hne, digitsValue_padded, Bool.false_eq_true, if_false,
    List.drop_left]

lemma readMark?_cons (mark : Char) (h : isBlank mark = false) (rest : Text) :
    readMark? mark (mark :: rest) = some rest := by
  simp [readMark?, Text.trimStart_cons h]

lemma signed_padded (n : Nat) {rest : Text} (hr : ∀ c, rest.head? = some c → c.isDigit = false) :
    readYear?.signed (padded 4 n ++ rest) = some (n, rest) := by
  have hne : (padded 4 n).isEmpty = false := by simp [padded_ne_nil]
  simp [readYear?.signed, takeDigits_append (fun c hc => isDigit_of_mem_padded hc) hr, hne]

theorem readYear?_yearText (year : Int) (rest : Text) :
    readYear? (yearText year ++ '-' :: rest) = some (year, '-' :: rest) := by
  have hr : ∀ c, ('-' :: rest : Text).head? = some c → c.isDigit = false := by
    rintro c ⟨⟩
    decide
  unfold yearText
  split
  · next h =>
    obtain ⟨c, u, hp⟩ := List.exists_cons_of_ne_nil (padded_ne_nil 4 year.toNat)
    have hmem : c ∈ padded 4 year.toNat := by simp [hp]
    have hc := isDigit_of_mem_padded hmem
    have hnum : readNumber? 4 (padded 4 year.toNat ++ '-' :: rest) = some (year.toNat, '-' :: rest) :=
      readNumber?_padded (by decide) (by omega) _
    rw [readYear?, trimStart_padded]
    split
    · next heq =>
      rw [hp, List.cons_append, List.cons.injEq] at heq
      rw [heq.1] at hc
      exact absurd hc (by decide)
    · next heq =>
      rw [hp, List.cons_append, List.cons.injEq] at heq
      rw [heq.1] at hc
      exact absurd hc (by decide)
    · rw [hnum]
      simp only [Option.map_some, Option.some.injEq, Prod.mk.injEq, and_true]
      omega
  · next h =>
    by_cases hneg : year < 0
    · have hs : Text.trimStart ('-' :: (padded 4 year.natAbs ++ '-' :: rest)) = '-' :: (padded 4 year.natAbs ++ '-' :: rest) :=
        Text.trimStart_cons (by decide) _
      simp only [hneg, if_true, List.cons_append, readYear?, hs, signed_padded _ hr, Option.map_some,
        Option.some.injEq, Prod.mk.injEq, and_true]
      omega
    · have hs : Text.trimStart ('+' :: (padded 4 year.natAbs ++ '-' :: rest)) = '+' :: (padded 4 year.natAbs ++ '-' :: rest) :=
        Text.trimStart_cons (by decide) _
      simp only [hneg, if_false, List.cons_append, readYear?, hs, signed_padded _ hr, Option.map_some,
        Option.some.injEq, Prod.mk.injEq, and_true]
      omega

lemma readDate?_text (d : Date) (h : d.isValid = true) (rest : Text) :
    readDate? (yearText d.year ++ '-' :: (padded 2 d.month ++ '-' :: (padded 2 d.day ++ rest))) = some (d, rest) := by
  obtain ⟨hm, hd⟩ := Date.bounds_of_isValid h
  simp [readDate?, readYear?_yearText, readMark?_cons '-' (by decide),
    readNumber?_padded (by decide) hm, readNumber?_padded (by decide) hd]

lemma readFraction?_places {places nanos : Nat} (hp : 0 < places) (hp9 : places ≤ 9) (hn : nanos < nanosPerSecond)
    (hd : nanos % 10 ^ (9 - places) = 0) {rest : Text} (hr : ∀ c, rest.head? = some c → c.isDigit = false) :
    readFraction? (fractionText places nanos ++ rest) = some (nanos, rest) := by
  have hpow : 10 ^ places * 10 ^ (9 - places) = nanosPerSecond := by
    rw [← Nat.pow_add, Nat.add_sub_cancel' hp9]
    rfl
  have hlt : nanos / 10 ^ (9 - places) < 10 ^ places := by
    rw [Nat.div_lt_iff_lt_mul (Nat.pow_pos (by decide)), hpow]
    exact hn
  have hne : (padded places (nanos / 10 ^ (9 - places))).isEmpty = false := by simp [padded_ne_nil]
  have hlen := length_padded hp hlt
  have hkeep : (padded places (nanos / 10 ^ (9 - places))).take 9 = padded places (nanos / 10 ^ (9 - places)) :=
    List.take_of_length_le (by omega)
  simp only [fractionText, Nat.pow_eq, Nat.pos_iff_ne_zero.1 hp, if_false, List.cons_append, readFraction?,
    takeDigits_append (fun c hc => isDigit_of_mem_padded hc) hr, hne, hkeep, hlen, digitsValue_padded,
    Bool.false_eq_true, Nat.div_mul_cancel (Nat.dvd_of_mod_eq_zero hd)]

theorem readFraction?_exact {nanos : Nat} (hn : nanos < nanosPerSecond) (rest : Text) :
    readFraction? (fractionText (exactPlaces nanos) nanos ++ 'Z' :: rest) = some (nanos, 'Z' :: rest) := by
  have hr : ∀ c, ('Z' :: rest : Text).head? = some c → c.isDigit = false := by
    rintro c ⟨⟩
    decide
  unfold exactPlaces
  split
  · next h => simp [h, fractionText, readFraction?]
  · split
    · next h => exact readFraction?_places (by decide) (by decide) hn h hr
    · split
      · next h => exact readFraction?_places (by decide) (by decide) hn h hr
      · exact readFraction?_places (by decide) (by decide) hn (Nat.mod_one _) hr

/-- A time of day is read back as it is written; a leap second is written as second 60, and that is how it is told. -/
theorem readClock?_text {second leap nanos : Nat} (hs : second < 86400) (hn : nanos < nanosPerSecond)
    (hl : leap = 0 ∨ leap = 1 ∧ second % 60 = 59) (rest : Text) :
    readClock? (padded 2 (second / 3600) ++ ':' :: (padded 2 (second / 60 % 60) ++
      ':' :: (padded 2 (second % 60 + leap) ++ (fractionText (exactPlaces nanos) nanos ++ 'Z' :: rest)))) =
      some ((second, nanos + leap * nanosPerSecond), 'Z' :: rest) := by
  have hh : second / 3600 < 10 ^ 2 := by omega
  have hm : second / 60 % 60 < 10 ^ 2 := by omega
  have hsec : second % 60 + leap < 10 ^ 2 := by omega
  have hrange : second / 3600 < 24 ∧ second / 60 % 60 < 60 ∧ second % 60 + leap ≤ 60 := by omega
  have hleap : (second % 60 + leap) / 60 = leap := by omega
  simp only [readClock?, readNumber?_padded (by decide) hh, readMark?_cons ':' (by decide),
    readNumber?_padded (by decide) hm, readNumber?_padded (by decide) hsec,
    readFraction?_exact hn, Option.bind_eq_bind, Option.bind_some, hrange, and_self, if_true, hleap,
    Option.pure_def, Option.some.injEq, Prod.mk.injEq, and_true]
  omega

lemma readZone?_utc : readZone? (Text.trimStart ['Z']) = some (0, []) := by decide

/-- The text of a point in time is read as that point in time. -/
theorem parse?_text {t : Timestamp} (h : t.IsValid) : parse? t.text = some t := by
  obtain ⟨seconds, nanos⟩ := t
  obtain ⟨hdate, hleap⟩ := h
  have hvalid : (Date.ofDayNumber (seconds / secondsPerDay + Date.epochDay)).isValid = true := by
    simp only [inCalendar, Bool.and_eq_true] at hdate
    exact hdate.1.1
  have hday := Date.dayNumber_ofDayNumber (seconds / secondsPerDay + Date.epochDay)
  generalize hd : Date.ofDayNumber (seconds / secondsPerDay + Date.epochDay) = d at *
  have hsec : (seconds % secondsPerDay).toNat < 86400 := by
    simp only [secondsPerDay]
    omega
  have hn : nanos % nanosPerSecond < nanosPerSecond := Nat.mod_lt _ (by decide)
  have hl : nanos / nanosPerSecond = 0 ∨
      nanos / nanosPerSecond = 1 ∧ (seconds % secondsPerDay).toNat % 60 = 59 := by
    simp only [nanosPerSecond, secondsPerDay] at *
    omega
  have hclock := readClock?_text hsec hn hl []
  have htext : (text ⟨seconds, nanos⟩).toList =
      yearText d.year ++ '-' :: (padded 2 d.month ++ '-' :: (padded 2 d.day ++ 'T' ::
        (padded 2 ((seconds % secondsPerDay).toNat / 3600) ++ ':' ::
        (padded 2 ((seconds % secondsPerDay).toNat / 60 % 60) ++
        ':' :: (padded 2 ((seconds % secondsPerDay).toNat % 60 + nanos / nanosPerSecond) ++
        (fractionText (exactPlaces (nanos % nanosPerSecond)) (nanos % nanosPerSecond) ++ ['Z'])))))) := by
    simp [text, render, hd]
  have hsum : (d.dayNumber - Date.epochDay) * secondsPerDay + ((seconds % secondsPerDay).toNat : Int) - 0 = seconds := by
    rw [hday]
    simp only [secondsPerDay]
    omega
  have hnanos : nanos % nanosPerSecond + nanos / nanosPerSecond * nanosPerSecond = nanos := by
    rw [Nat.mul_comm]
    exact Nat.mod_add_div _ _
  simp only [parse?, htext, readDate?_text d hvalid, hclock, readZone?_utc, Option.bind_eq_bind, Option.bind_some,
    true_or, if_true, hsum, hnanos, hd, hdate, Text.isBlankText, List.all_nil, and_self]

lemma slash_notMem_padded (width n : Nat) : '/' ∉ padded width n := by
  intro h
  exact absurd (isDigit_of_mem_padded h) (by decide)

theorem slash_notMem_fileText (t : Timestamp) : '/' ∉ t.fileText.toList := by
  have hfrac : ∀ places nanos, '/' ∉ fractionText places nanos := by
    intro places nanos
    unfold fractionText
    split <;> simp [slash_notMem_padded]
  have hyear : ∀ year, '/' ∉ yearText year := by
    intro year
    unfold yearText
    split
    · exact slash_notMem_padded _ _
    · split <;> simp [slash_notMem_padded]
  have hrender : '/' ∉ t.render (fun _ => 3) ++ ['Z'] := by
    simp [render, slash_notMem_padded, hfrac, hyear]
  intro h
  simp only [fileText, String.toList_ofList, Text.replaceChars, List.mem_map] at h
  obtain ⟨c, hc, heq⟩ := h
  split at heq
  · exact absurd heq (by decide)
  · exact hrender (heq ▸ hc)

end Timestamp
end Autofix
