import Autofix.Proofs.Edit.Deletion
import Autofix.Proofs.Fixer.Registry
import Autofix.Proofs.Fixer.Spacing
import Autofix.Proofs.Syntax.Parser

/-! The edits that the fixers make: all are edits of stretches of the text that the fixer was asked about, and
those that replace a word of a line take away what the line was found by. -/
namespace Autofix
open Text Edit

namespace Edit
variable {t : Text} {e : Edit} {start stop : Nat}

lemma le_lineEnd_of_flat (hle : start ≤ stop) (hstop : stop ≤ t.length) (h : newlines (slice t start stop) = 0) :
    stop ≤ lineEnd t start := by
  have hline : lineOf t start = lineOf t stop := by
    rw [lineOf, lineOf, ← take_append_slice t hle, newlines_append, h, Nat.add_zero]
  rw [← (lineBounds_of_lineOf_eq hle hstop hline).2]
  exact le_lineEnd hstop

/-- A word that is replaced by one with fewer of some character is lost to its line: the rest of the line stays, so the
count of the character on the line goes down with that of the word. -/
theorem inLine_of_word {word replacement : Text} (hword : slice t start (start + word.length) = word)
    (hstop : start + word.length ≤ t.length) (hne : word ≠ []) (hflat : newlines word = 0)
    (hflat' : newlines replacement = 0) (c : Char) (hc : replacement.count c < word.count c) :
    InLine t ⟨start, start + word.length, replacement⟩ ∧ Loses t ⟨start, start + word.length, replacement⟩ := by
  have hp : start ≤ t.length := by omega
  have hend : start + word.length ≤ lineEnd t start :=
    le_lineEnd_of_flat (Nat.le_add_right _ _) hstop (by rw [hword, hflat])
  have hline : lineAt t start =
      slice t (lineStart t start) start ++ word ++ slice t (start + word.length) (lineEnd t start) := by
    rw [← hword, slice_append_slice t (lineStart_le t start) (by omega), hword, lineAt,
      slice_append_slice t ((lineStart_le t start).trans (by omega)) hend]
  have hlen : (t.take (lineStart t start)).length + (slice t (lineStart t start) start).length = start := by
    rw [← List.length_append, take_append_slice t (lineStart_le t start), List.length_take_of_le hp]
  obtain ⟨hin, hbefore, hafter⟩ := inLine_append (e := ⟨start, start + word.length, replacement⟩)
    (i := (slice t (lineStart t start) start).length) (j := (slice t (lineStart t start) start).length + word.length)
    (endsLine_take_lineStart t start) (newlines_lineAt hp) (drop_lineEnd_cases hp)
    (by have := List.length_pos_iff.2 hne; omega) (by rw [hline, List.length_append, List.length_append]; omega) hflat'
    (by simp only [Edit.mk.injEq, and_true]; omega)
  rw [split_lineAt hp] at hin hbefore hafter
  refine ⟨hin, fun hlost => ?_⟩
  rw [hbefore, hafter, hline, List.append_assoc, List.take_left, List.drop_length_add_append, List.drop_left] at hlost
  have hcount := hlost.sublist.count_le c
  simp only [List.count_append] at hcount
  omega

lemma lineStart_le_length (t : Text) (p : Nat) : lineStart t p ≤ t.length := by
  rw [lineStart, List.length_take]
  omega

lemma fits_insertion (t : Text) (p : Nat) (replacement : Text) : Fits t ⟨lineStart t p, lineStart t p, replacement⟩ :=
  ⟨Nat.le_refl _, lineStart_le_length t p⟩

end Edit

section Fixers
variable {parser : Parser} {r : FixRequest} {f : Fix}

/-- The changes of the fix make edits of the text that the fixer was asked about. -/
def Fix.MakesEdits (f : Fix) (r : FixRequest) (edits : List Edit) : Prop :=
  f.changes = edits.map (toChange r.issue.filePath r.content)

/-- The fix is made by a fixer, and each of its changes makes an edit that alters the text that the fixer was asked
about. -/
structure Fix.Offers (f : Fix) (fixer : String) (r : FixRequest) (edits : List Edit) : Prop where
  provider : f.provider = fixer
  inRange : f.confidence.inRange = true
  nonempty : edits ≠ []
  makesEdits : f.MakesEdits r edits
  fits : ∀ e ∈ edits, e.Fits r.content
  alters : ∀ e ∈ edits, e.Alters r.content

lemma Confidence.inRange_hundredths : ∀ n ≤ 100, (hundredths n).inRange = true := by decide +kernel

lemma Fix.offers_create {fixer : String} {edits : List Edit} (hne : edits ≠ [])
    (hedits : ∀ e ∈ edits, e.Fits r.content ∧ e.Alters r.content) (description : String) {n : Nat} (hn : n ≤ 100)
    (risk : Risk) : (Fix.create fixer r.issue.id description (edits.map (toChange r.issue.filePath r.content))
      (.hundredths n) risk).Offers fixer r edits where
  provider := rfl
  inRange := Confidence.inRange_hundredths n hn
  nonempty := hne
  makesEdits := rfl
  fits e he := (hedits e he).1
  alters e he := (hedits e he).2

lemma Documentation.eq_of_stub? {language : Language} {source placeholder : Text} {d : Declaration}
    {stub : Documentation.Stub} (h : Documentation.stub? language source placeholder d = some stub) :
    (∃ p, stub.position = lineStart source p) ∧ stub.text ≠ [] := by
  have habove : ∀ {p : Nat} {text : Text → Text}, (∀ indent, text indent ≠ []) →
      Documentation.stubAbove? source p text = some stub →
      (∃ p, stub.position = lineStart source p) ∧ stub.text ≠ [] := by
    intro p text htext h
    simp only [Documentation.stubAbove?] at h
    split at h
    · cases h
    · cases h
      exact ⟨⟨p, rfl⟩, htext _⟩
  rw [Documentation.stub?.eq_def] at h
  split at h
  · obtain ⟨body, _, h⟩ := Option.bind_eq_some_iff.1 h
    split at h
    · cases h
    · obtain ⟨first, _, h⟩ := Option.bind_eq_some_iff.1 h
      split at h
      · cases h
      · cases h
        exact ⟨⟨first.start, rfl⟩, by simp [Documentation.quotedComment]⟩
  · exact habove (by simp [Documentation.lineComment]) h
  · exact habove (by simp [Documentation.blockComment]) h

theorem Documentation.offers_of_generate (h : Documentation.generate parser r = .ok (some f)) :
    ∃ edits, f.Offers name r edits := by
  rw [Documentation.generate] at h
  split at h
  · cases h
  · obtain ⟨parsed, _, h⟩ := exists_parsed_of h
    obtain ⟨d, _, h⟩ := Option.bind_eq_some_iff.1 h
    obtain ⟨stub, hstub, h⟩ := Option.bind_eq_some_iff.1 h
    obtain ⟨⟨p, hp⟩, htext⟩ := Documentation.eq_of_stub? hstub
    obtain rfl := Option.some.inj h
    refine ⟨_, Fix.offers_create (List.cons_ne_nil _ []) (fun e he => ?_) _ (by decide) _⟩
    obtain rfl := List.mem_singleton.1 he
    refine ⟨hp ▸ fits_insertion r.content p stub.text, ?_⟩
    rw [Alters, slice_self]
    exact htext.symm

/-- A rule is applied to a statement of its kind, on the line of the issue if that has one. -/
lemma Refactoring.mem_of_target? {rule : Rule} {parsed : Parsed} {line : Option Nat} {n : SyntaxNode}
    (h : target? rule parsed line = some n) :
    n ∈ parsed.nodesOfKind rule.kind ∧ rule.applies parsed n = true ∧
      ∀ l, line = some l → lineOf parsed.source n.start = l := by
  rw [target?.eq_def] at h
  split at h
  · obtain ⟨hfound, happlies⟩ := Option.filter_eq_some_iff.1 h
    have hline := List.find?_some hfound
    refine ⟨List.mem_of_find?_eq_some hfound, happlies, fun l hl => ?_⟩
    rw [← Option.some.inj hl]
    simpa using hline
  · exact ⟨List.mem_of_find?_eq_some h, List.find?_some h, fun _ hl => by cases hl⟩

lemma Refactoring.keywordToken?_eq_some {statement token : SyntaxNode} {keyword : String} :
    keywordToken? statement keyword = some token ↔ statement.children.head? = some token ∧ token.kind = keyword := by
  rw [keywordToken?, Option.filter_eq_some_iff, beq_iff_eq]

lemma Refactoring.rule?_cases {type : String} {rule : Rule} (h : rule? type = some rule) :
    rule = ⟨"lexical_declaration", "let", "const", 80⟩ ∨ rule = ⟨"variable_declaration", "var", "let", 75⟩ := by
  rw [rule?] at h
  split at h
  · exact .inl (Option.some.inj h).symm
  · split at h
    · exact .inr (Option.some.inj h).symm
    · cases h

/-- The keyword of a rule is a word of the source where a statement has it. -/
lemma Refactoring.text_keywordToken? {type : String} {rule : Rule} (hrule : rule? type = some rule)
    {statement token : SyntaxNode} {source : Text} (hsound : token.StandsIn source)
    (htoken : keywordToken? statement rule.keyword = some token) :
    token.start + rule.keyword.toList.length ≤ source.length ∧
      token.stop = token.start + rule.keyword.toList.length ∧ token.textIn source = rule.keyword.toList := by
  have hkind := (keywordToken?_eq_some.1 htoken).2
  obtain ⟨hstop, htext⟩ : token.stop ≤ source.length ∧ token.textIn source = rule.keyword.toList := by
    rw [← hkind]
    refine hsound.keyword ?_
    rw [hkind]
    rcases rule?_cases hrule with rfl | rfl
    · exact .inl rfl
    · exact .inr rfl
  have hlength := congrArg List.length htext
  have hne : rule.keyword.toList.length ≠ 0 := by rcases rule?_cases hrule with rfl | rfl <;> decide
  rw [SyntaxNode.textIn, slice, List.length_drop, List.length_take] at hlength
  exact ⟨by omega, by omega, htext⟩

/-- Each rule replaces a keyword by one with fewer of some character. -/
lemma Refactoring.keyword_of_rule? {type : String} {rule : Rule} (h : rule? type = some rule) :
    rule.keyword.toList ≠ [] ∧ newlines rule.keyword.toList = 0 ∧ newlines rule.replacement.toList = 0 ∧
      ∃ c, rule.replacement.toList.count c < rule.keyword.toList.count c := by
  rcases rule?_cases h with rfl | rfl
  · exact ⟨by decide, by decide, by decide, 'l', by decide⟩
  · exact ⟨by decide, by decide, by decide, 'v', by decide⟩

/-- A fix for a variable statement replaces its keyword by that of a rule. -/
theorem Refactoring.offers_of_generate (hparser : parser.IsSound)
    (h : Refactoring.generate parser r = .ok (some f)) :
    ∃ e, f.Offers name r [e] ∧ (e.InLine r.content ∧ e.Loses r.content) ∧
      ∃ rule, rule? r.issue.type = some rule ∧ slice r.content e.start e.stop = rule.keyword.toList ∧
        e.replacement = rule.replacement.toList := by
  rw [Refactoring.generate] at h
  split at h
  · cases h
  · obtain ⟨parsed, hparsed, h⟩ := exists_parsed_of h
    obtain ⟨rule, hrule, h⟩ := Option.bind_eq_some_iff.1 h
    obtain ⟨statement, hstatement, h⟩ := Option.bind_eq_some_iff.1 h
    obtain ⟨token, htoken, h⟩ := Option.bind_eq_some_iff.1 h
    have hmem := SyntaxNode.mem_nodes_of_mem_children (Parsed.mem_nodesOfKind.1 (mem_of_target? hstatement).1).1
      (List.mem_of_mem_head? (keywordToken?_eq_some.1 htoken).1)
    obtain ⟨hinside, hstop, hword⟩ := text_keywordToken? hrule (hparser.standsIn hparsed hmem) htoken
    obtain ⟨hne, hflat, hflat', c, hc⟩ := Refactoring.keyword_of_rule? hrule
    have hpercent : rule.hundredths ≤ 100 := by rcases Refactoring.rule?_cases hrule with rfl | rfl <;> decide
    obtain rfl := Option.some.inj h
    rw [SyntaxNode.textIn, hstop] at hword
    rw [hstop]
    have hline := inLine_of_word hword hinside hne hflat hflat' c hc
    refine ⟨_, Fix.offers_create (List.cons_ne_nil _ []) (fun e he => ?_) _ hpercent _, hline, rule, hrule, hword, rfl⟩
    obtain rfl := List.mem_singleton.1 he
    exact ⟨hline.1.fits, hline.2.alters hline.1.fits⟩

theorem Refactoring.changes_of_generate (hparser : parser.IsSound)
    (h : Refactoring.generate parser r = .ok (some f)) :
    ∃ e, f.MakesEdits r [e] ∧ e.InLine r.content ∧ e.Loses r.content := by
  obtain ⟨e, hoffers, hline, _⟩ := Refactoring.offers_of_generate hparser h
  exact ⟨e, hoffers.makesEdits, hline⟩

lemma Imports.repeated_sublist (source : Text) (seen : List Text) (imports : List Span) :
    (repeated source seen imports).Sublist imports := by
  induction imports generalizing seen with
  | nil => exact List.Sublist.refl _
  | cons s rest ih =>
    rw [repeated]
    split
    · exact (ih seen).cons_cons _
    · exact (ih _).cons _

lemma Imports.mem_of_target? {source : Text} {imports : List Span} {line : Option Nat} {symbol : Option Text} {s : Span}
    (h : target? source imports line symbol = some s) : s ∈ imports := by
  rw [target?.eq_def] at h
  split at h
  · exact List.mem_of_find?_eq_some h
  · exact List.mem_of_find?_eq_some h
  · cases h

/-- The deletion of a statement takes something away. -/
lemma Imports.deletion_of_lt {s : Span} (hs : s.start < s.stop ∧ s.stop ≤ r.content.length) :
    (deletion r.content s.start s.stop).Fits r.content ∧ (deletion r.content s.start s.stop).Alters r.content := by
  obtain ⟨hlt, hstop⟩ := hs
  obtain ⟨_, hopen, hclose, _, hinside⟩ := deletion_bounds s.start hstop
  have hnil : (deletion r.content s.start s.stop).replacement = [] := by
    rcases deletion_cases r.content s.start s.stop with h | ⟨_, _, h⟩ <;> rw [h]
  refine ⟨fits_deletion hlt.le hstop, ?_⟩
  rw [Alters, hnil]
  exact slice_ne_nil _ (by omega) hinside

lemma Imports.offers_of_unused? {imports : List Span}
    (himports : ∀ s ∈ imports, s.start < s.stop ∧ s.stop ≤ r.content.length) (h : unused? r imports = some f) :
    ∃ edits, f.Offers name r edits := by
  obtain ⟨s, hs, h⟩ := Option.bind_eq_some_iff.1 h
  dsimp only at h
  split at h
  · cases h
  · obtain rfl := Option.some.inj h
    refine ⟨_, Fix.offers_create (List.cons_ne_nil _ []) (fun e he => ?_) _ (by decide) _⟩
    obtain rfl := List.mem_singleton.1 he
    exact Imports.deletion_of_lt (himports s (Imports.mem_of_target? hs))

def Imports.deletions (t : Text) (imports : List Span) : List Edit := imports.map fun s => deletion t s.start s.stop

lemma Imports.map_deleteImport (path : String) (t : Text) (imports : List Span) :
    imports.map (deleteImport path t) = (deletions t imports).map (toChange path t) := by
  rw [deletions, List.map_map]
  exact List.map_congr_left fun s _ => by rw [deleteImport, Function.comp_apply]

lemma Imports.offers_of_chosen {chosen : List Span}
    (hchosen : ∀ s ∈ chosen, s.start < s.stop ∧ s.stop ≤ r.content.length) {description : String}
    (h : (if chosen.isEmpty then none else some (Fix.create name r.issue.id description
      (chosen.reverse.map (deleteImport r.issue.filePath r.content)) (.hundredths 95) .low)) = some f) :
    ∃ edits, f.Offers name r edits := by
  split at h
  · cases h
  · next hne =>
    obtain rfl := Option.some.inj h
    rw [map_deleteImport]
    refine ⟨_, Fix.offers_create (by simpa [deletions] using hne) (fun e he => ?_) _ (by decide) _⟩
    obtain ⟨s, hs, rfl⟩ := List.mem_map.1 he
    exact Imports.deletion_of_lt (hchosen s (List.mem_reverse.1 hs))

lemma Imports.offers_of_duplicates? {imports : List Span}
    (himports : ∀ s ∈ imports, s.start < s.stop ∧ s.stop ≤ r.content.length) (h : duplicates? r imports = some f) :
    ∃ edits, f.Offers name r edits := by
  have hrepeated : ∀ s ∈ repeated r.content [] imports, s.start < s.stop ∧ s.stop ≤ r.content.length :=
    fun s hs => himports s ((Imports.repeated_sublist ..).subset hs)
  simp only [duplicates?] at h
  cases hline : r.issue.line with
  | some line =>
    rw [hline] at h
    exact Imports.offers_of_chosen (fun s hs => hrepeated s (List.mem_filter.1 hs).1) h
  | none =>
    rw [hline] at h
    exact Imports.offers_of_chosen hrepeated h

theorem Imports.offers_of_generate (hparser : parser.IsSound) (h : Imports.generate parser r = .ok (some f)) :
    ∃ edits, f.Offers name r edits := by
  rw [Imports.generate] at h
  split at h
  · cases h
  · split at h
    · obtain ⟨parsed, hparsed, h⟩ := exists_parsed_of h
      exact Imports.offers_of_unused? (fun _ hs => hparser.imports hparsed hs) h
    · split at h
      · obtain ⟨parsed, hparsed, h⟩ := exists_parsed_of h
        exact Imports.offers_of_duplicates? (fun _ hs => hparser.imports hparsed hs) h
      · cases h

lemma Formatting.offers_of_build? {description : String} {edits : List Edit} {n : Nat} (hn : n ≤ 100)
    (hedits : ∀ e ∈ edits, (e.Fits r.content ∧ e.Alters r.content) ∧ e.Respaces r.content)
    (h : build? r description edits n = some f) :
    f.Offers name r edits ∧ ∀ e ∈ edits, e.Respaces r.content := by
  rw [build?] at h
  split at h
  · cases h
  · next hne =>
    obtain rfl := Option.some.inj h
    exact ⟨Fix.offers_create (by simpa using hne) (fun e he => (hedits e he).1) _ hn _, fun e he => (hedits e he).2⟩

lemma Formatting.of_mem_lineEdits {edit? : Text → Nat → Option Edit} (hlines : EditsLines edit?)
    (hspaces : RespacesLines edit?) {t : Text} {line : Option Nat} {e : Edit} (he : e ∈ lineEdits t line edit?) :
    (e.Fits t ∧ e.Alters t) ∧ e.Respaces t := by
  have hrewrites := hlines.lineEdits t line
  have hfits := (hrewrites.inLine e he).fits
  exact ⟨⟨hfits, (hrewrites.loses e he).alters hfits⟩, hspaces.lineEdits he⟩

/-- A fix of the formatting fixer makes edits of the spacing. -/
theorem Formatting.offers_of_generate (h : Formatting.generate r = some f) :
    ∃ edits, f.Offers name r edits ∧ ∀ e ∈ edits, e.Respaces r.content := by
  simp only [generate] at h
  split at h
  · exact ⟨_, offers_of_build? (by decide)
      (fun _ he => of_mem_lineEdits trimLine?_editsLines trimLine?_respacesLines he) h⟩
  · split at h
    · split at h
      · cases h
      · refine ⟨_, offers_of_build? (by decide) (fun e he => ?_) h⟩
        obtain rfl := List.mem_singleton.1 he
        exact ⟨⟨⟨Nat.le_refl _, Nat.le_refl _⟩, by simp [Alters, slice_self]⟩, respaces_newline r.content⟩
    · split at h
      · exact ⟨_, offers_of_build? (by decide)
          (fun _ he => of_mem_lineEdits expandLine?_editsLines expandLine?_respacesLines he) h⟩
      · cases h

/-- The fixers that come with the program are told apart by their names. -/
lemma Registry.eq_of_name {fixer fixer' : Fixer} (hfixer : fixer ∈ builtin parser) (hfixer' : fixer' ∈ builtin parser)
    (hname : fixer.name = fixer'.name) : fixer = fixer' :=
  List.inj_on_of_nodup_map (map_name_builtin parser ▸ by decide) hfixer hfixer' hname

lemma Registry.formatting_mem_builtin (parser : Parser) : Formatting.fixer ∈ builtin parser := by simp [builtin]

lemma Registry.refactoring_mem_builtin (parser : Parser) : Refactoring.fixer parser ∈ builtin parser := by
  simp [builtin]

/-- Every fix of the fixers that come with the program makes edits that fit the text it was made for. -/
theorem Registry.builtin_offers (hparser : parser.IsSound) {fixer : Fixer} (hfixer : fixer ∈ builtin parser)
    (h : fixer.generate r = .ok (some f)) : ∃ edits, f.Offers fixer.name r edits := by
  simp only [builtin, List.mem_cons, List.not_mem_nil, or_false] at hfixer
  rcases hfixer with rfl | rfl | rfl | rfl
  · obtain ⟨edits, hoffers, _⟩ := Formatting.offers_of_generate (Except.ok.inj h)
    exact ⟨edits, hoffers⟩
  · exact Imports.offers_of_generate hparser h
  · exact Documentation.offers_of_generate h
  · obtain ⟨e, hoffers, _⟩ := Refactoring.offers_of_generate hparser h
    exact ⟨[e], hoffers⟩

theorem Registry.builtin_change (hparser : parser.IsSound) {fixer : Fixer} (hfixer : fixer ∈ builtin parser)
    (h : fixer.generate r = .ok (some f)) (hone : f.changes.length = 1) : ∃ e, f.MakesEdits r [e] ∧ e.Fits r.content := by
  obtain ⟨edits, hoffers⟩ := builtin_offers hparser hfixer h
  have hedits := hoffers.makesEdits
  rw [hedits, List.length_map, List.length_eq_one_iff] at hone
  obtain ⟨e, rfl⟩ := hone
  exact ⟨e, hedits, hoffers.fits e List.mem_cons_self⟩

end Fixers
end Autofix
