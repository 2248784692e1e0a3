import Autofix.Proofs.Fixer.Duplicates

/-! Imports that are not used. One that names several symbols is left alone if the symbol that the issue quotes is one
of its words; the issue's line alone is enough to have it deleted if the symbol is not. -/
namespace Autofix
open Text Edit

namespace Text
variable {sep : Char → Bool} {t piece before after : Text}

/-- Nothing but separators stands next to a piece of a text. -/
structure Encloses (sep : Char → Bool) (before after : Text) : Prop where
  before : ∀ c, before.getLast? = some c → sep c = true
  after : ∀ c, after.head? = some c → sep c = true

lemma mem_splitAt_of_encloses (hpiece : ∀ c ∈ piece, sep c = false) (h : Encloses sep before after) :
    piece ∈ splitAt sep (before ++ piece ++ after) := by
  have hback : piece ∈ splitAt sep (piece ++ after) := by
    cases after with
    | nil => simp [splitAt_of_forall_not hpiece]
    | cons c rest => simp [splitAt_append (h.after c rfl), splitAt_of_forall_not hpiece]
  rcases List.eq_nil_or_concat before with rfl | ⟨front, c, rfl⟩
  · simpa using hback
  · have hc : sep c = true := h.before c (by simp)
    simp [splitAt_append hc, hback]

/-- The pieces of a text are its parts without separators that only separators stand next to. The text up to its
first separator is the first piece; the others are those of what follows the separator. -/
theorem mem_splitAt_iff : piece ∈ splitAt sep t ↔
    (∀ c ∈ piece, sep c = false) ∧ ∃ before after, t = before ++ piece ++ after ∧ Encloses sep before after := by
  constructor
  · intro h
    induction hn : t.length using Nat.strong_induction_on generalizing t with
    | _ n ih =>
      have hsplit := List.takeWhile_append_dropWhile (p := fun c => !sep c) (l := t)
      have hfirst : ∀ c ∈ t.takeWhile fun c => !sep c, sep c = false := fun c hc => by
        simpa using List.mem_takeWhile_imp hc
      have hhead := List.head?_dropWhile_not (fun c => !sep c) t
      cases hrest : t.dropWhile fun c => !sep c with
      | nil =>
        rw [hrest, List.append_nil] at hsplit
        rw [hsplit] at hfirst
        rw [splitAt_of_forall_not hfirst, List.mem_singleton] at h
        subst h
        exact ⟨hfirst, [], [], by simp, ⟨by simp, by simp⟩⟩
      | cons c rest =>
        rw [hrest] at hsplit hhead
        have hc : sep c = true := by simpa using hhead
        rw [← hsplit, splitAt_append hc, splitAt_of_forall_not hfirst, List.singleton_append, List.mem_cons] at h
        rcases h with rfl | h
        · refine ⟨hfirst, [], c :: rest, by simp [hsplit], ⟨by simp, fun d hd => ?_⟩⟩
          rwa [← Option.some.inj hd]
        · have hlt : rest.length < n := by
            rw [← hn, ← hsplit, List.length_append, List.length_cons]
            omega
          obtain ⟨hpiece, before, after, rfl, hbefore, hafter⟩ := ih _ hlt h rfl
          refine ⟨hpiece, (t.takeWhile fun c => !sep c) ++ c :: before, after, ?_, ?_, hafter⟩
          · simpa using hsplit.symm
          · intro d hd
            rcases List.eq_nil_or_concat before with rfl | ⟨front, e, rfl⟩
            · simp only [List.getLast?_concat, Option.some.injEq] at hd
              rwa [← hd]
            · exact hbefore d (by simpa [List.getLast?_append, List.getLast?_cons] using hd)
  · rintro ⟨hpiece, before, after, rfl, henclosed⟩
    exact mem_splitAt_of_encloses hpiece henclosed

end Text

namespace Imports
variable {t word symbol : Text} {r : FixRequest} {imports : List Span} {s : Span} {fix : Fix}

/-- A letter, a digit or one of the other characters of names. -/
def isNameChar (c : Char) : Bool := isLetterOrDigit c || (c == '_' || c == '$')

/-- The word is a name, and stands in the text as a name of its own. -/
def IsWordOf (word t : Text) : Prop :=
  (∀ c ∈ word, isNameChar c = true) ∧
    ∃ before after, t = before ++ word ++ after ∧ Encloses (fun c => !isNameChar c) before after

lemma containsWord_iff : containsWord t word = true ↔ IsWordOf word t := by
  rw [containsWord, List.contains_iff_mem]
  change word ∈ splitAt (fun c => !isNameChar c) t ↔ _
  simp only [mem_splitAt_iff, IsWordOf, Bool.not_eq_false']

/-- Without a line, the import that is found has the symbol among its words. -/
lemma isWordOf_of_target? (h : target? t imports none (some symbol) = some s) : IsWordOf symbol (textOf t s) := by
  have hfound : imports.find? (fun s => containsWord (textOf t s) symbol) = some s := h
  have hword := List.find?_some hfound
  exact containsWord_iff.1 hword

lemma unused?_eq_none (hquoted : quotedSymbol? r.issue.description.toList = some symbol)
    (hs : target? r.content imports r.issue.line (some symbol) = some s) :
    unused? r imports = none ↔ ',' ∈ textOf r.content s ∧ IsWordOf symbol (textOf r.content s) := by
  rw [← containsWord_iff, ← List.contains_iff_mem, ← Bool.and_eq_true, unused?, hquoted]
  simp only [hs, Option.bind_eq_bind, Option.bind_some]
  rw [ite_eq_left_iff]
  simp [namesSeveral]

lemma changes_of_unused (hquoted : quotedSymbol? r.issue.description.toList = some symbol)
    (h : unused? r imports = some fix) :
    ∃ s, target? r.content imports r.issue.line (some symbol) = some s ∧
      fix.changes = [deleteImport r.issue.filePath r.content s] := by
  rw [unused?, hquoted] at h
  obtain ⟨s, hs, h⟩ := Option.bind_eq_some_iff.1 h
  refine ⟨s, hs, ?_⟩
  obtain ⟨_, h⟩ := Option.ite_none_left_eq_some.1 h
  rw [← Option.some.inj h]
  exact Fix.changes_create ..

/-- The fix for an import that is not used, for an issue that quotes a symbol. It deletes one import and blanks around
it. If that names several symbols, the issue gives the line of the import and the symbol is none of its words; and for
such an issue the fix is made. -/
theorem unused_leaves_others (r : FixRequest) (imports : List Span) (symbol : Text)
    (hquoted : quotedSymbol? r.issue.description.toList = some symbol)
    (himports : ∀ s ∈ imports, s.stop ≤ r.content.length) :
    (∀ (parser : Parser) language parsed, r.language = some language → r.issue.type = unusedImport →
      parser.parse language r.issue.filePath r.content = .ok parsed → parsed.imports.map SyntaxNode.span = imports →
      generate parser r = .ok (unused? r imports)) ∧
    (∀ fix, unused? r imports = some fix → ∃ s ∈ imports,
      fix.changes = [deleteImport r.issue.filePath r.content s] ∧
      (∀ p c, r.content[p]? = some c → (deletion r.content s.start s.stop).start ≤ p →
        p < (deletion r.content s.start s.stop).stop → s.start ≤ p ∧ p < s.stop ∨ isBlank c = true) ∧
      (',' ∈ textOf r.content s →
        r.issue.line = some (lineOf r.content s.start) ∧ ¬ IsWordOf symbol (textOf r.content s))) ∧
    ∀ line s, r.issue.line = some line → onLine? r.content Span.start imports line = some s →
      ¬ IsWordOf symbol (textOf r.content s) →
      ∃ fix, unused? r imports = some fix ∧ fix.changes = [deleteImport r.issue.filePath r.content s] := by
  refine ⟨?_, fun fix hfix => ?_, fun line s hline hs hword => ?_⟩
  · rintro parser language parsed hlanguage htype hparsed rfl
    exact (generate_of_parse hlanguage hparsed).1 htype
  · obtain ⟨s, hs, hchanges⟩ := changes_of_unused hquoted hfix
    have hmem := mem_of_target? hs
    refine ⟨s, hmem, hchanges, fun p c hc hfirst hlast => ?_, fun hcomma => ?_⟩
    · exact isBlank_of_deletion (himports s hmem) hc hfirst hlast
    · have hword : ¬ IsWordOf symbol (textOf r.content s) := fun hword => by
        rw [(unused?_eq_none hquoted hs).2 ⟨hcomma, hword⟩] at hfix
        cases hfix
      refine ⟨?_, hword⟩
      cases hline : r.issue.line with
      | none =>
        rw [hline] at hs
        exact absurd (isWordOf_of_target? hs) hword
      | some line =>
        rw [hline] at hs
        have hon : lineOf r.content s.start = line := by simpa using List.find?_some hs
        rw [hon]
  · have htarget : target? r.content imports r.issue.line (some symbol) = some s := by
      rw [hline]
      exact hs
    have hmade : unused? r imports ≠ none := fun hnone => hword ((unused?_eq_none hquoted htarget).1 hnone).2
    obtain ⟨fix, hfix⟩ := Option.ne_none_iff_exists'.1 hmade
    obtain ⟨s', hs', hchanges⟩ := changes_of_unused hquoted hfix
    obtain rfl := Option.some.inj (htarget.symm.trans hs')
    exact ⟨fix, hfix, hchanges⟩

/-- Asked without a line about the one of two imports that names one symbol. -/
theorem unused_leaves_others_alone :
    let imports : List Span := [⟨0, 11⟩, ⟨12, 20⟩]
    let r := Specimen.askedImports "import a, b\nimport c\n".toList "unused-import" none "'c' is not used"
    let tree := Specimen.importTree r.content "import_statement" imports
    ∃ fix s, generate (Specimen.parserOf r.content tree) r = .ok (some fix) ∧
      fix.changes = [deleteImport "a.py" r.content s] ∧ ',' ∉ textOf r.content s := by
  intro imports r tree
  have hmade : (unused? r imports).isSome = true := by decide +kernel
  obtain ⟨fix, hfix⟩ := Option.isSome_iff_exists.1 hmade
  obtain ⟨hgenerate, hdeletes, _⟩ := unused_leaves_others r imports ['c'] (by decide +kernel) (by decide +kernel)
  obtain ⟨s, _, hchanges, _, hseveral⟩ := hdeletes fix hfix
  refine ⟨fix, s, ?_, hchanges, fun hcomma => ?_⟩
  · rw [hgenerate _ _ _ rfl rfl (Specimen.parse_importTree ..)
      (Specimen.imports_importTree r.content (by decide) (by decide)), hfix]
  · exact absurd (hseveral hcomma).1 (by simp [r, Specimen.askedImports])

/-- A linter quotes the symbol with its module, and so no word of the import: both names of the import are deleted. -/
theorem qualified_symbol_deletes_others :
    let t := "from typing import List, Dict\n\nx: Dict = \x7b\x7d\n".toList
    let r := Specimen.askedImports t "unused-import" (some 1) "'typing.List' imported but unused"
    quotedSymbol? r.issue.description.toList = some "typing.List".toList ∧
      textOf t ⟨0, 29⟩ = "from typing import List, Dict".toList ∧ namesSeveral (textOf t ⟨0, 29⟩) = true ∧
      (Specimen.made (fixer (Specimen.parserOf t (Specimen.importTree t "import_from_statement" [⟨0, 29⟩]))) r).map
        Fix.changes = [[deleteImport "a.py" t ⟨0, 29⟩]] := by
  decide +kernel

end Imports
end Autofix
