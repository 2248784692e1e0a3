import Autofix.Change
import Autofix.Issue
import Autofix.Proofs.Json.Reading

/-! Issues and changes as JSON. What is written about one is read back as it was. Texts of other shapes are
read as well (other names of fields, another order, fields nobody knows, arrays); whatever is read from them
has numbers of 64 bits, so it can be written and read again. -/
namespace Autofix.Json

section Words

lemma readWord_append (word tail : Text) : readWord word (word ++ tail) = .ok tail := by
  induction word with
  | nil => rfl
  | cons c word ih => simp [readWord, ih]

theorem Codec.reads_bool (b : Bool) : bool.Reads (.bool b) b := by
  cases b with
  | false =>
    refine ⟨fun depth => ⟨'f', "alse".toList, rfl, by decide, by decide, by decide⟩, fun depth blanks tail hb _ => ?_⟩
    have htext : blanks ++ (render depth (.bool false) ++ tail) = blanks ++ 'f' :: ("alse".toList ++ tail) := rfl
    simp only [bool, htext, skipSpace_append hb (c := 'f') (by decide), readWord_append]
    rfl
  | true =>
    refine ⟨fun depth => ⟨'t', "rue".toList, rfl, by decide, by decide, by decide⟩, fun depth blanks tail hb _ => ?_⟩
    have htext : blanks ++ (render depth (.bool true) ++ tail) = blanks ++ 't' :: ("rue".toList ++ tail) := rfl
    simp only [bool, htext, skipSpace_append hb (c := 't') (by decide), readWord_append]
    rfl

theorem Codec.reads_choice {table : List (String × α)} {name : String} {a : α} (h : table.lookup name = some a) :
    (choice table).Reads (.string name) a := by
  refine ⟨fun depth => ⟨'"', _, rfl, by decide, by decide, by decide⟩, fun depth blanks tail hb _ => ?_⟩
  have htext : blanks ++ (render depth (.string name) ++ tail) =
      blanks ++ '"' :: (name.toList.flatMap escape ++ '"' :: tail) := by simp [render_string, quote]
  simp only [choice, htext, skipSpace_append hb (c := '"') (by decide), readStringTail_quoted, bind, Except.bind, h]

/-- A number is told from `null` by its first character. -/
theorem Codec.reads_optional_natural {n bound : Nat} (h : n < 2 ^ 64) (hb : n ≤ bound) :
    (optional (natural bound)).Reads (.natural n) (some n) := by
  have hreads := reads_natural h hb
  refine ⟨hreads.start, fun depth blanks tail hblank ht => ?_⟩
  have hread := hreads.read depth [] tail (by simp) ht
  obtain ⟨c, u, hc⟩ := List.exists_cons_of_ne_nil (digitsOf_ne_nil n)
  have hdigit : c.isDigit = true := isDigit_of_mem_digitsOf (n := n) (by simp [hc])
  rw [render_natural, hc, List.nil_append, List.cons_append] at hread
  rw [render_natural, hc, List.cons_append]
  simp only [optional, skipSpace_append hblank (not_isSpace_of_isDigit hdigit).1]
  split
  · next heq =>
    rw [(List.cons.inj heq).1] at hdigit
    exact absurd hdigit (by decide)
  · rw [hread]
    rfl

end Words

section Optional
variable {σ : Type} {slots : List (Slot σ)} {name : String} {names : List String} {get : σ → Option (Option Nat)}
  {set : σ → Option (Option Nat) → σ}

/-- A field that is left out if there is no value for it. -/
lemma Fills.field? {required : Bool}
    (found : slots.find? (fun slot => slot.names.contains name) =
      some (.of names get set required (.optional (.natural maxWord))))
    {value : Option Nat} (hvalue : ∀ n ∈ value, n ≤ maxWord) {fields : List (String × Json)} {s s' : σ}
    (hget : get s = none) (hset : set s none = s) (rest : Fills slots fields (set s (value.map some)) s') :
    Fills slots (Json.field? name (value.map .natural) ++ fields) s s' := by
  cases value with
  | none =>
    rw [Option.map_none, hset] at rest
    exact rest
  | some n =>
    have hn : n ≤ maxWord := hvalue n rfl
    have hword : maxWord = 2 ^ 64 - 1 := rfl
    refine .cons _ found ?_ (reads_slot (Codec.reads_optional_natural (by omega) hn) _ _ _ _) rest
    simp [Slot.of, hget]

end Optional

section Results
variable {ε α β : Type}

lemma bind_eq_ok {x : Except ε α} {f : α → Except ε β} {b : β} (h : (x >>= f) = .ok b) :
    ∃ a, x = .ok a ∧ f a = .ok b := by
  cases x with
  | error e => cases h
  | ok a => exact ⟨a, rfl, h⟩

lemma map_eq_ok {x : Except ε α} {f : α → β} {b : β} (h : x.map f = .ok b) : ∃ a, x = .ok a ∧ f a = b := by
  cases x with
  | error e => cases h
  | ok a => exact ⟨a, rfl, Except.ok.inj h⟩

end Results

/-- Whatever the codec reads satisfies `P`. -/
def Codec.Yields (c : Codec α) (P : α → Prop) : Prop := ∀ t a rest, c.read t = .ok (a, rest) → P a

namespace Codec

lemma yields_any (c : Codec α) : c.Yields fun _ => True := fun _ _ _ _ => trivial

lemma yields_natural (bound : Nat) : (natural bound).Yields (· ≤ bound) := by
  intro t a rest h
  simp only [natural] at h
  split at h
  · split at h
    · obtain ⟨⟨n, _⟩, _, h⟩ := bind_eq_ok h
      dsimp only at h
      split at h
      · split at h
        · next hle =>
          cases h
          exact hle
        · cases h
      · cases h
    · cases h
  · cases h

lemma Yields.optional {c : Codec α} {P : α → Prop} (hc : c.Yields P) :
    (optional c).Yields fun value => ∀ a ∈ value, P a := by
  intro t value rest h
  simp only [Codec.optional] at h
  split at h
  · obtain ⟨_, _, h⟩ := map_eq_ok h
    cases h
    simp
  · obtain ⟨⟨a, _⟩, hread, h⟩ := map_eq_ok h
    cases h
    rintro b ⟨⟩
    exact hc _ _ _ hread

lemma Yields.map {c : Codec α} {P : α → Prop} (hc : c.Yields P) {f : α → β} {Q : β → Prop} (hf : ∀ a, P a → Q (f a)) :
    (c.map f).Yields Q := by
  intro t b rest h
  obtain ⟨⟨a, _⟩, hread, h⟩ := bind_eq_ok h
  cases h
  exact hf a (hc _ _ _ hread)

end Codec

section Drafts
variable {σ : Type} {I : σ → Prop}

/-- Reading the slot's field keeps `I`. -/
def Slot.Keeps (I : σ → Prop) (slot : Slot σ) : Prop := slot.codec.Yields fun f => ∀ s, I s → I (f s)

lemma Slot.keeps_of {c : Codec α} {P : α → Prop} (hc : c.Yields P) {names : List String} {get : σ → Option α}
    {set : σ → Option α → σ} {required : Bool} (hset : ∀ a, P a → ∀ s, I s → I (set s (some a))) :
    (Slot.of names get set required c).Keeps I :=
  hc.map (f := fun a s => set s (some a)) hset

lemma foldFields_keeps {field : σ → String → Reader σ}
    (hfield : ∀ s name t s' rest, I s → field s name t = .ok (s', rest) → I s') {fuel : Nat} {first : Bool}
    {s s' : σ} {t rest : Text} (hs : I s) (h : foldFields field fuel first s t = .ok (s', rest)) : I s' := by
  induction fuel generalizing first s t with
  | zero => cases h
  | succ fuel ih =>
    obtain ⟨⟨name, rest'⟩, _, h⟩ := bind_eq_ok h
    cases name with
    | none =>
      cases h
      exact hs
    | some name =>
      obtain ⟨⟨s₁, rest₁⟩, hone, h⟩ := bind_eq_ok h
      exact ih (hfield _ _ _ _ _ hs hone) h

variable {slots : List (Slot σ)}

lemma readField_keeps (hslots : ∀ slot ∈ slots, slot.Keeps I) (s : σ) (name : String) (t : Text) (s' : σ) (rest : Text)
    (hs : I s) (h : readField slots s name t = .ok (s', rest)) : I s' := by
  unfold readField at h
  split at h
  · obtain ⟨t₁, _, h⟩ := bind_eq_ok h
    obtain ⟨_, _, h⟩ := map_eq_ok h
    cases h
    exact hs
  · next slot hfound =>
    split at h
    · cases h
    · obtain ⟨t₁, _, h⟩ := bind_eq_ok h
      obtain ⟨⟨f, _⟩, hread, h⟩ := map_eq_ok h
      cases h
      exact hslots slot (List.mem_of_find?_eq_some hfound) _ _ _ hread s hs

lemma readSlots_keeps (hslots : ∀ slot ∈ slots, slot.Keeps I) {first : Bool} {s s' : σ} {t rest : Text} (hs : I s)
    (h : readSlots slots first s t = .ok (s', rest)) : I s' := by
  induction slots generalizing first s t with
  | nil =>
    rw [readSlots] at h
    split at h <;> cases h
    exact hs
  | cons slot slots ih =>
    rw [List.forall_mem_cons] at hslots
    rw [readSlots] at h
    obtain ⟨⟨more, rest₁⟩, _, h⟩ := bind_eq_ok h
    dsimp only at h
    split at h
    · obtain ⟨⟨f, rest₂⟩, hread, h⟩ := bind_eq_ok h
      exact ih hslots.2 (hslots.1 _ _ _ hread s hs) h
    · split at h
      · cases h
      · exact ih hslots.2 hs h

/-- What holds of the empty draft and is kept by every slot holds of every draft that is read, from an object
as from an array. -/
theorem Codec.yields_record {empty : σ} {finish : σ → Option α} {P : α → Prop}
    (hslots : ∀ slot ∈ slots, slot.Keeps I) (hempty : I empty) (hfinish : ∀ s a, I s → finish s = some a → P a) :
    (record slots empty finish).Yields P := by
  intro t a rest h
  suffices hdraft : ∃ s, I s ∧ finish s = some a by
    obtain ⟨s, hs, ha⟩ := hdraft
    exact hfinish s a hs ha
  simp only [record] at h
  split at h
  · obtain ⟨⟨s, _⟩, hread, h⟩ := bind_eq_ok h
    refine ⟨s, readSlots_keeps hslots hempty hread, ?_⟩
    dsimp only at h
    split at h <;> cases h
    assumption
  · obtain ⟨⟨s, _⟩, hread, h⟩ := bind_eq_ok h
    refine ⟨s, foldFields_keeps (readField_keeps hslots) hempty hread, ?_⟩
    dsimp only at h
    split at h <;> cases h
    assumption
  · cases h

lemma Codec.Yields.readAll {c : Codec α} {P : α → Prop} (hc : c.Yields P) {t : Text} {a : α}
    (h : readAll c.read t = .ok a) : P a := by
  obtain ⟨⟨b, rest⟩, hread, h⟩ := bind_eq_ok h
  dsimp only at h
  split at h <;> cases h
  exact hc _ _ _ hread

end Drafts
end Autofix.Json

namespace Autofix
open Json

lemma getD_map_some {α : Type} (o : Option α) : (o.map some).getD none = o := by cases o <;> rfl

namespace Issue

/-- The line number is one of 64 bits. -/
def Fits (i : Issue) : Prop := ∀ n ∈ i.line, n ≤ maxWord

lemma reads_toJson {i : Issue} (h : i.Fits) : codec.Reads i.toJson i := by
  obtain ⟨id, type, severity, filePath, line, description, autoFix⟩ := i
  refine Codec.reads_record (s := ⟨id, type, severity, filePath, line.map some, description, autoFix⟩)
    (by simp) ?_ (by simp [Draft.finish?, getD_map_some])
  rw [List.append_assoc]
  refine .cons _ rfl rfl (reads_slot (Codec.reads_string _) _ _ _ _) ?_
  refine .cons _ rfl rfl (reads_slot (Codec.reads_string _) _ _ _ _) ?_
  refine .cons _ rfl rfl (reads_slot (Codec.reads_choice (Severity.ofName?_name _)) _ _ _ _) ?_
  refine .cons _ rfl rfl (reads_slot (Codec.reads_string _) _ _ _ _) ?_
  refine .field? rfl h rfl rfl ?_
  refine .cons _ rfl rfl (reads_slot (Codec.reads_string _) _ _ _ _) ?_
  refine .cons _ rfl rfl (reads_slot (Codec.reads_bool _) _ _ _ _) ?_
  exact .nil _

def Draft.Fits (d : Draft) : Prop := ∀ line ∈ d.line, ∀ n ∈ line, n ≤ maxWord

lemma keeps_fits : ∀ slot ∈ slots, slot.Keeps Draft.Fits := by
  have hline : ∀ line : Option Nat, (∀ n ∈ line, n ≤ maxWord) → ∀ d : Draft, d.Fits →
      Draft.Fits { d with line := some line } := by
    rintro line h d _ _ ⟨⟩
    exact h
  simp only [slots, List.forall_mem_cons]
  refine ⟨?_, ?_, ?_, ?_, Slot.keeps_of (Codec.yields_natural _).optional hline, ?_, ?_, by simp⟩
  all_goals exact Slot.keeps_of (Codec.yields_any _) fun _ _ _ h => h

theorem yields_fits : codec.Yields Fits := by
  refine Codec.yields_record keeps_fits (by simp [Draft.Fits]) fun d i hd hi => ?_
  simp only [Draft.finish?, Option.bind_eq_bind, Option.bind_eq_some_iff] at hi
  obtain ⟨id, _, type, _, severity, _, filePath, _, hi⟩ := hi
  cases hi
  intro n hn
  cases hline : d.line with
  | none => simp [hline] at hn
  | some line =>
    rw [hline, Option.getD_some] at hn
    exact hd line hline n hn

end Issue

namespace Change

def places (c : Change) : List (Option Nat) := [c.startLine, c.endLine, c.startColumn, c.endColumn]

/-- The lines and columns are numbers of 64 bits. -/
def Fits (c : Change) : Prop := ∀ place ∈ c.places, ∀ n ∈ place, n ≤ maxWord

lemma reads_toJson {c : Change} (h : c.Fits) : codec.Reads c.toJson c := by
  obtain ⟨filePath, expected, replacement, startLine, endLine, startColumn, endColumn⟩ := c
  simp only [Fits, places, List.forall_mem_cons] at h
  obtain ⟨hstartLine, hendLine, hstartColumn, hendColumn, _⟩ := h
  refine Codec.reads_record (s := ⟨filePath, expected, replacement, startLine.map some, endLine.map some,
    startColumn.map some, endColumn.map some⟩) (by simp) ?_ (by simp [Draft.finish?, getD_map_some])
  rw [← List.append_nil (field? "end_column" _)]
  simp only [List.append_assoc]
  refine .cons _ rfl rfl (reads_slot (Codec.reads_string _) _ _ _ _) ?_
  refine .cons _ rfl rfl (reads_slot (Codec.reads_string _) _ _ _ _) ?_
  refine .cons _ rfl rfl (reads_slot (Codec.reads_string _) _ _ _ _) ?_
  refine .field? rfl hstartLine rfl rfl ?_
  refine .field? rfl hendLine rfl rfl ?_
  refine .field? rfl hstartColumn rfl rfl ?_
  refine .field? rfl hendColumn rfl rfl ?_
  exact .nil _

def Draft.places (d : Draft) : List (Option (Option Nat)) := [d.startLine, d.endLine, d.startColumn, d.endColumn]

def Draft.Fits (d : Draft) : Prop := ∀ read ∈ d.places, ∀ place ∈ read, ∀ n ∈ place, n ≤ maxWord

lemma keeps_fits : ∀ slot ∈ slots, slot.Keeps Draft.Fits := by
  have hplace : place.Yields fun value => ∀ n ∈ value, n ≤ maxWord := (Codec.yields_natural _).optional
  simp only [slots, List.forall_mem_cons]
  refine ⟨?_, ?_, ?_, ?_, ?_, ?_, ?_, by simp⟩
  iterate 3 exact Slot.keeps_of (Codec.yields_any _) fun _ _ _ h => h
  all_goals
    refine Slot.keeps_of hplace fun value hvalue d hd => ?_
    simp only [Draft.Fits, Draft.places, List.forall_mem_cons] at hd ⊢
    simp_all

theorem yields_fits : codec.Yields Fits := by
  refine Codec.yields_record keeps_fits (by simp [Draft.Fits, Draft.places]) fun d c hd hc => ?_
  simp only [Draft.finish?, Option.bind_eq_bind, Option.bind_eq_some_iff] at hc
  obtain ⟨filePath, _, expected, _, replacement, _, hc⟩ := hc
  cases hc
  have hone : ∀ read ∈ d.places, ∀ n ∈ read.getD none, n ≤ maxWord := by
    intro read hread n hn
    cases read with
    | none => simp at hn
    | some place => exact hd _ hread place rfl n hn
  simpa [Fits, places, Draft.places] using hone

end Change

/-- Issues and changes are read back as they were written, on one line or on several. Whatever is accepted as
one, however its text is put, can be written and read again without a difference. -/
theorem parse_written :
    (∀ i : Issue, i.Fits → Issue.parse i.toJson.compact = .ok i ∧ Issue.parse i.toJson.pretty = .ok i) ∧
    (∀ c : Change, c.Fits → Change.parse c.toJson.compact = .ok c ∧ Change.parse c.toJson.pretty = .ok c) ∧
    (∀ text i, Issue.parse text = .ok i →
      Issue.parse i.toJson.compact = .ok i ∧ Issue.parse i.toJson.pretty = .ok i) ∧
    ∀ text c, Change.parse text = .ok c →
      Change.parse c.toJson.compact = .ok c ∧ Change.parse c.toJson.pretty = .ok c := by
  have hissue : ∀ i : Issue, i.Fits →
      Issue.parse i.toJson.compact = .ok i ∧ Issue.parse i.toJson.pretty = .ok i := by
    intro i h
    simp only [Issue.parse, compact, pretty, String.toList_ofList]
    exact ⟨(Issue.reads_toJson h).readAll _, (Issue.reads_toJson h).readAll _⟩
  have hchange : ∀ c : Change, c.Fits →
      Change.parse c.toJson.compact = .ok c ∧ Change.parse c.toJson.pretty = .ok c := by
    intro c h
    simp only [Change.parse, compact, pretty, String.toList_ofList]
    exact ⟨(Change.reads_toJson h).readAll _, (Change.reads_toJson h).readAll _⟩
  exact ⟨hissue, hchange, fun text i h => hissue i (Issue.yields_fits.readAll h),
    fun text c h => hchange c (Change.yields_fits.readAll h)⟩

/-- An issue under other names, in another order, with an unknown field and with escapes. -/
def Issue.foreign : String :=
  "\x7b\"filePath\":\"a\\u00e9\",\"type\":\"t\",\"extra\":[1]," ++
    "\"severity\":\x7b\"low\":null\x7d,\"id\":\"\\uD83D\\uDE00\"\x7d"

/-- A change with characters that must be escaped, on the last line there can be. -/
def Change.extreme : Change := ⟨"a", "\"\\\x01", "😀\n", some maxWord, none, some 0, none⟩

theorem parse_written_aliases :
    (∃ i : Issue, Issue.parse Issue.foreign = .ok i ∧ i = ⟨"😀", "t", .low, "aé", none, "", false⟩ ∧
      Issue.parse i.toJson.compact = .ok i) ∧
    Change.extreme.Fits ∧ Change.parse Change.extreme.toJson.compact = .ok Change.extreme := by
  have hparse : Issue.parse Issue.foreign = .ok ⟨"😀", "t", .low, "aé", none, "", false⟩ := by decide +kernel
  have hfits : Change.extreme.Fits := by simp [Change.Fits, Change.places, Change.extreme]
  obtain ⟨_, hchange, hissue, _⟩ := parse_written
  exact ⟨⟨_, hparse, rfl, (hissue _ _ hparse).1⟩, hfits, (hchange _ hfits).1⟩

end Autofix
