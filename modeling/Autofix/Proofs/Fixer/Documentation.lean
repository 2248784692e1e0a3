import Autofix.Config.Basic
import Autofix.Fixer.Documentation
import Autofix.Outline.Token
import Autofix.Proofs.Syntax.Parser
import Autofix.Proofs.Text.LineAt

/-! Stubs above declarations are documentation. Whether a stub is known again as such depends on the placeholder
alone, and so does whether all of its lines belong to one comment. -/
namespace Autofix
open Text

namespace Text
variable {a b t : Text} {p : Nat}

lemma lines_append_of_flat {first : Text} {further : List Text} (ha : newlines a = 0)
    (ht : lines t = first :: further) : lines (a ++ t) = (a ++ first) :: further := by
  induction a with
  | nil => exact ht
  | cons c a ih =>
    rw [newlines_eq_zero, List.forall_mem_cons] at ha
    exact splitAt_cons_of_not_sep ha.1 (ih (newlines_eq_zero.2 ha.2))

/-- The blanks before a character that is no blank stand before it on its line. -/
lemma newlines_indentation (hp : Visible t p) : newlines (indentation (t.drop (lineStart t p))) = 0 := by
  obtain ⟨c, hc, hblank⟩ := hp
  have hnone : (t.drop p).takeWhile isBlank = [] := by
    rw [← List.head?_eq_none_iff, List.head?_takeWhile, hc]
    simp [hblank]
  refine newlines_of_sublist (List.IsPrefix.sublist ?_) (newlines_slice_lineStart t p)
  rw [indentation, ← slice_append_drop t (lineStart_le t p), List.takeWhile_append, hnone]
  split
  · exact ⟨[], by simp⟩
  · exact List.takeWhile_prefix _

/-- A line moves with the text that is put before it. -/
lemma lineStart_splice (ht : EndsLine b) (hp : p ≤ t.length) :
    lineStart (splice t (lineStart t p) (lineStart t p) b) (p + b.length) = lineStart t p + b.length := by
  have hle := lineStart_le t p
  have hlen := length_lineAt hp
  have hend := le_lineEnd hp
  have hfront : EndsLine (t.take (lineStart t p) ++ b) := ht.append fun _ => endsLine_take_lineStart t p
  have hbounds := lineBounds_append (k := p - lineStart t p) hfront (newlines_lineAt hp) (drop_lineEnd_cases hp)
    (by omega)
  rw [List.append_assoc, show lineAt t p ++ t.drop (lineEnd t p) = t.drop (lineStart t p) from
    slice_append_drop t (hle.trans hend), List.length_append, List.length_take_of_le (by omega)] at hbounds
  rw [splice, ← hbounds.1]
  congr 1
  omega

end Text

namespace Outline
variable {mark a b : Text}

/-- A mark that occurs in a text is found in it. -/
lemma afterMark_of_infix (hne : mark ≠ []) (h : mark <:+: a) (b : Text) :
    ∃ rest, afterMark mark (a ++ b) = some (rest ++ b) := by
  induction a with
  | nil => exact absurd (List.eq_nil_of_infix_nil h) hne
  | cons c a ih =>
    rw [List.cons_append, afterMark]
    split
    · refine ⟨(c :: a).drop mark.length, ?_⟩
      rw [← List.cons_append, List.drop_append_of_le_length h.length_le]
    · next hstart =>
      rcases List.infix_cons_iff.1 h with hpre | hin
      · exact absurd (List.isPrefixOf_iff_prefix.2 (hpre.trans (List.prefix_append _ _))) hstart
      · exact ih hin

/-- A text without the mark is passed over, if no mark starts in it and ends behind it. A mark at its front would have
its slash in it, or at the front of what follows. -/
lemma afterMark_close (ha : ¬ ['*', '/'] <:+: a) (hb : b.head? ≠ some '/') :
    afterMark ['*', '/'] (a ++ b) = afterMark ['*', '/'] b := by
  induction a with
  | nil => rfl
  | cons c a ih =>
    rw [List.infix_cons_iff, not_or] at ha
    rw [List.cons_append, afterMark, if_neg, ih ha.2]
    intro hstart
    rw [List.isPrefixOf_iff_prefix, List.cons_prefix_cons] at hstart
    obtain ⟨rfl, hslash⟩ := hstart
    cases a with
    | nil =>
      obtain ⟨rest, rfl⟩ := hslash
      exact hb rfl
    | cons d a =>
      rw [List.cons_append, List.cons_prefix_cons] at hslash
      obtain ⟨rfl, _⟩ := hslash
      exact ha.1 ⟨a, rfl⟩

end Outline

namespace Documentation
open Outline Autofix.Specimen
variable {language : Language} {source placeholder indent before t : Text} {d : Declaration} {stub : Stub}

/-- Where the line starts that a stub goes above: with the export of a declaration, or with the declaration. -/
def anchor (language : Language) (d : Declaration) : Nat :=
  match language with
  | .rust => d.node.start
  | _ => (exported d).start

/-- The text of a stub. -/
def comment (language : Language) (placeholder indent : Text) : Text :=
  match language with
  | .rust => lineComment placeholder indent
  | _ => blockComment placeholder indent

/-- Is a stub known again as documentation? Of the further lines of a placeholder in a line comment, the last that is
no decoration has to look like documentation. -/
def isKnownAgain (language : Language) (placeholder : Text) : Bool :=
  match language with
  | .rust => (((lines placeholder).tail.reverse.map trim).find? fun line => !isDecoration line).all isDocLine
  | _ => true

/-- What follows the block comment that a text starts with. -/
def afterBlock? (text : Text) : Option Text :=
  match trimStart text with
  | '/' :: '*' :: rest => afterMark ['*', '/'] rest
  | _ => none

/-- Read as code, all lines of the text belong to one comment: each is a line comment, or a block comment reaches
from the first line to the end of the last one. -/
def IsComment (language : Language) (text : Text) : Prop :=
  match language with
  | .rust => ∀ line ∈ linesAbove text, "///".toList <+: trimStart line
  | _ => newlines (indentation text) = 0 ∧ afterBlock? text = some ['\n']

/-- The placeholder does not leave the comment that it stands in. -/
def StaysInside (language : Language) (placeholder : Text) : Prop :=
  match language with
  | .rust => ∀ line ∈ (lines placeholder).tail, "///".toList <+: trimStart line
  | _ => ¬ "*/".toList <:+: placeholder

instance (language : Language) (text : Text) : Decidable (IsComment language text) :=
  match language with
  | .rust => inferInstanceAs (Decidable (∀ line ∈ linesAbove text, _))
  | .python | .typeScript | .tsx | .javaScript | .jsx => inferInstanceAs (Decidable (_ ∧ _))

instance (language : Language) (placeholder : Text) : Decidable (StaysInside language placeholder) :=
  match language with
  | .rust => inferInstanceAs (Decidable (∀ line ∈ (lines placeholder).tail, _))
  | .python | .typeScript | .tsx | .javaScript | .jsx => inferInstanceAs (Decidable (¬ _))

section Lines

lemma linesAbove_newline (t : Text) : linesAbove (t ++ ['\n']) = (lines t).reverse := by
  have hlines : lines (t ++ ['\n']) = lines t ++ [[]] := splitAt_append (by decide) t []
  rw [linesAbove, hlines, List.reverse_append]
  rfl

lemma linesAbove_append {a b : Text} (ha : EndsLine a) : linesAbove (a ++ (b ++ ['\n'])) =
    (lines b).reverse ++ linesAbove a := by
  rcases ha with rfl | hlast
  · rw [List.nil_append, linesAbove_newline, show linesAbove [] = [] from rfl, List.append_nil]
  · obtain ⟨a, rfl⟩ := List.getLast?_eq_some_iff.1 hlast
    have hlines : lines (a ++ '\n' :: b) = lines a ++ lines b := splitAt_append (by decide) a b
    rw [← List.append_assoc, linesAbove_newline, List.append_assoc, List.singleton_append, hlines, List.reverse_append,
      linesAbove_newline]

lemma hasDocComment_eq (before : Text) : hasDocComment before =
    (((linesAbove before).map trim).find? fun line => !isDecoration line).any isDocLine := by
  rw [hasDocComment]
  induction (linesAbove before).map trim with
  | nil => rfl
  | cons line rest ih =>
    cases hline : isDecoration line with
    | true => rw [List.dropWhile_cons_of_pos hline, List.find?_cons_of_neg (by simp [hline]), ih]
    | false =>
      rw [List.dropWhile_cons_of_neg (by simp [hline]), List.find?_cons_of_pos (by simp [hline])]
      rfl

lemma isDocLine_of_prefix {line : Text} (h : "///".toList <+: line) :
    isDecoration line = false ∧ isDocLine line = true := by
  obtain ⟨rest, rfl⟩ := h
  exact ⟨rfl, rfl⟩

lemma trimStart_marked (hindent : ∀ c ∈ indent, isBlank c = true) (rest : Text) :
    trimStart (indent ++ ("/// ".toList ++ rest)) = "/// ".toList ++ rest := by
  rw [trimStart, List.dropWhile_append_of_pos hindent]
  rfl

lemma prefix_trim_marked (hindent : ∀ c ∈ indent, isBlank c = true) (rest : Text) :
    "///".toList <+: trim (indent ++ ("/// ".toList ++ rest)) := by
  rw [trim, trimStart_marked hindent]
  refine prefix_trimEnd (fun c hc => ?_) (' ' :: rest)
  obtain rfl : '/' = c := Option.some.inj hc
  decide

end Lines

section Recognition

/-- The lines of a line comment: the placeholder goes on after the mark. -/
lemma lines_marked {first : Text} {further : List Text} (hflat : newlines indent = 0)
    (h : lines placeholder = first :: further) :
    lines (indent ++ ("/// ".toList ++ placeholder)) = (indent ++ ("/// ".toList ++ first)) :: further :=
  lines_append_of_flat hflat (lines_append_of_flat (by decide) h)

lemma lineComment_eq (placeholder indent : Text) :
    lineComment placeholder indent = indent ++ ("/// ".toList ++ placeholder) ++ ['\n'] := by
  rw [lineComment, List.append_assoc indent]

/-- The line with the mark stops the search at the latest, so what stands before the stub does not matter. -/
lemma hasDocComment_lineComment (hbefore : EndsLine before) (hblank : ∀ c ∈ indent, isBlank c = true)
    (hflat : newlines indent = 0) (placeholder : Text) :
    hasDocComment (before ++ lineComment placeholder indent) = isKnownAgain .rust placeholder := by
  obtain ⟨first, further, hlines⟩ := List.exists_cons_of_ne_nil (splitAt_ne_nil isNewline placeholder)
  obtain ⟨hplain, hdoc⟩ := isDocLine_of_prefix (prefix_trim_marked hblank first)
  rw [hasDocComment_eq, lineComment_eq, linesAbove_append hbefore, lines_marked hflat hlines, isKnownAgain,
    show lines placeholder = _ from hlines]
  simp only [List.reverse_cons, List.map_append, List.map_cons, List.map_nil, List.find?_append, List.tail_cons,
    List.find?_cons, hplain, Bool.not_false]
  cases (further.reverse.map trim).find? fun line => !isDecoration line with
  | none => exact hdoc
  | some line => rfl

lemma hasDocComment_blockComment (hblank : ∀ c ∈ indent, isBlank c = true) (hflat : newlines indent = 0)
    (before placeholder : Text) : hasDocComment (before ++ blockComment placeholder indent) = true := by
  have hlast : trim (indent ++ " */".toList) = "*/".toList := by
    rw [trim_blank_append hblank]
    decide
  have hends : EndsLine (before ++ (indent ++ "/**\n".toList ++ indent ++ " * ".toList ++ placeholder ++ ['\n'])) :=
    .inr (by rw [← List.append_assoc, List.getLast?_concat])
  have hsplit : before ++ blockComment placeholder indent =
      before ++ (indent ++ "/**\n".toList ++ indent ++ " * ".toList ++ placeholder ++ ['\n']) ++
        (indent ++ " */".toList ++ ['\n']) := by
    simp [blockComment]
  rw [hasDocComment_eq, hsplit, linesAbove_append hends, lines_of_flat (by rw [newlines_append, hflat]; rfl),
    List.reverse_singleton, List.singleton_append, List.map_cons, hlast]
  rfl

lemma hasDocComment_comment (hbefore : EndsLine before) (hblank : ∀ c ∈ indent, isBlank c = true)
    (hflat : newlines indent = 0) (language : Language) (placeholder : Text) :
    hasDocComment (before ++ comment language placeholder indent) = isKnownAgain language placeholder := by
  cases language with
  | rust => exact hasDocComment_lineComment hbefore hblank hflat placeholder
  | _ => exact hasDocComment_blockComment hblank hflat before placeholder

end Recognition

section Comments

lemma isComment_lineComment (hblank : ∀ c ∈ indent, isBlank c = true) (hflat : newlines indent = 0)
    (placeholder : Text) : IsComment .rust (lineComment placeholder indent) ↔ StaysInside .rust placeholder := by
  obtain ⟨first, further, hlines⟩ := List.exists_cons_of_ne_nil (splitAt_ne_nil isNewline placeholder)
  have hmarked : "///".toList <+: trimStart (indent ++ ("/// ".toList ++ first)) := by
    rw [trimStart_marked hblank]
    exact ⟨' ' :: first, rfl⟩
  simp only [IsComment, StaysInside]
  rw [lineComment_eq, linesAbove_newline, lines_marked hflat hlines, show lines placeholder = _ from hlines]
  simp only [List.mem_reverse, List.forall_mem_cons, hmarked, true_and, List.tail_cons]

/-- A block comment ends at the end of its stub unless the placeholder ends it. -/
lemma afterMark_blockComment (hblank : ∀ c ∈ indent, isBlank c = true) (placeholder : Text) :
    afterMark ['*', '/'] ("*\n".toList ++ indent ++ " * ".toList ++ placeholder ++
      ('\n' :: indent ++ " */\n".toList)) = some ['\n'] ↔ ¬ "*/".toList <:+: placeholder := by
  have hslash : '/' ∉ indent := fun hmem => absurd (hblank _ hmem) (by decide)
  have hpass : ∀ {a : Text}, '/' ∉ a → ¬ ['*', '/'] <:+: a := fun ha h => ha (h.subset (by simp))
  constructor
  · intro hend hmark
    obtain ⟨rest, hrest⟩ := afterMark_of_infix (by decide)
      (hmark.trans (List.suffix_append ("*\n".toList ++ indent ++ " * ".toList) placeholder).isInfix)
      ('\n' :: indent ++ " */\n".toList)
    have hlength := congrArg List.length (Option.some.inj (hrest.symm.trans hend))
    have hclose : " */\n".toList.length = 4 := rfl
    simp only [List.length_append, List.length_cons, List.length_nil, hclose] at hlength
    omega
  · intro hmark
    have hinside : ¬ ['*', '/'] <:+: ' ' :: placeholder := by
      rw [List.infix_cons_iff, not_or]
      exact ⟨fun h => absurd (List.cons_prefix_cons.1 h).1 (by decide), hmark⟩
    calc afterMark ['*', '/'] ("*\n".toList ++ indent ++ " * ".toList ++ placeholder ++
          ('\n' :: indent ++ " */\n".toList))
        = afterMark ['*', '/'] (("*\n".toList ++ indent ++ " *".toList) ++
            ((' ' :: placeholder) ++ (('\n' :: indent ++ [' ']) ++ "*/\n".toList))) := by simp
      _ = afterMark ['*', '/'] ((' ' :: placeholder) ++ (('\n' :: indent ++ [' ']) ++ "*/\n".toList)) :=
          afterMark_close (hpass (by simp [hslash])) (by simp)
      _ = afterMark ['*', '/'] (('\n' :: indent ++ [' ']) ++ "*/\n".toList) := afterMark_close hinside (by simp)
      _ = afterMark ['*', '/'] "*/\n".toList := afterMark_close (hpass (by simp [hslash])) (by decide)
      _ = some ['\n'] := by decide

lemma isComment_blockComment (hblank : ∀ c ∈ indent, isBlank c = true) (hflat : newlines indent = 0)
    (placeholder : Text) (hlanguage : language ≠ .rust) :
    IsComment language (blockComment placeholder indent) ↔ StaysInside language placeholder := by
  have hsplit : blockComment placeholder indent = indent ++ ('/' :: '*' :: ("*\n".toList ++ indent ++ " * ".toList ++
      placeholder ++ ('\n' :: indent ++ " */\n".toList))) := by simp [blockComment]
  have hindent : newlines (indentation (blockComment placeholder indent)) = 0 := by
    rw [hsplit, indentation, List.takeWhile_append_of_pos hblank, List.takeWhile_cons_of_neg (by decide),
      List.append_nil, hflat]
  have hafter : afterBlock? (blockComment placeholder indent) = afterMark ['*', '/'] ("*\n".toList ++ indent ++
      " * ".toList ++ placeholder ++ ('\n' :: indent ++ " */\n".toList)) := by
    rw [afterBlock?, hsplit, trimStart, List.dropWhile_append_of_pos hblank, List.dropWhile_cons_of_neg (by decide)]
    rfl
  have hiff : (newlines (indentation (blockComment placeholder indent)) = 0 ∧
      afterBlock? (blockComment placeholder indent) = some ['\n']) ↔ ¬ "*/".toList <:+: placeholder := by
    rw [hafter, afterMark_blockComment hblank]
    exact and_iff_right hindent
  cases language with
  | rust => exact absurd rfl hlanguage
  | _ => exact hiff

lemma isComment_comment (hblank : ∀ c ∈ indent, isBlank c = true) (hflat : newlines indent = 0)
    (language : Language) (placeholder : Text) :
    IsComment language (comment language placeholder indent) ↔ StaysInside language placeholder := by
  by_cases hlanguage : language = .rust
  · subst hlanguage
    exact isComment_lineComment hblank hflat placeholder
  · have hcomment : comment language placeholder indent = blockComment placeholder indent := by
      cases language with
      | rust => exact absurd rfl hlanguage
      | _ => rfl
    rw [hcomment]
    exact isComment_blockComment hblank hflat placeholder hlanguage

end Comments

section Stubs

lemma endsLine_comment (language : Language) (placeholder indent : Text) :
    EndsLine (comment language placeholder indent) := by
  cases language with
  | rust => exact .inr List.getLast?_concat
  | _ => exact EndsLine.append (.inr (by decide)) fun hnil => absurd hnil (by decide)

lemma stub?_eq (h : language ≠ .python) (source placeholder : Text) (d : Declaration) :
    stub? language source placeholder d =
      stubAbove? source (anchor language d) (comment language placeholder) := by
  cases language with
  | python => exact absurd rfl h
  | _ => rfl

lemma stub?_eq_none_iff (h : language ≠ .python) : stub? language source placeholder d = none ↔
    hasDocComment (source.take (lineStart source (anchor language d))) = true := by
  rw [stub?_eq h, stubAbove?]
  split <;> simp_all

lemma eq_of_stub?_eq_some (h : language ≠ .python) (hstub : stub? language source placeholder d = some stub) :
    stub = ⟨lineStart source (anchor language d), comment language placeholder
      (indentation (source.drop (lineStart source (anchor language d))))⟩ := by
  rw [stub?_eq h, stubAbove?] at hstub
  split at hstub
  · cases hstub
  · exact (Option.some.inj hstub).symm

/-- If declarations and exports start at visible characters, the line that a stub goes above has one. -/
lemma visible_anchor {parser : Parser} {path : String} {parsed : Parsed} (hparser : parser.ShowsDeclarations)
    (hparsed : parser.parse language path source = .ok parsed) (hd : d ∈ parsed.declarations) :
    Visible source (anchor language d) := by
  obtain ⟨hnode, hkind, hparent⟩ := Parsed.mem_declarations hd
  have htree := (Parser.of_parse hparsed).2
  have hown : Visible source d.node.start := hparser _ _ _ htree _ hnode (.inl hkind)
  have hexported : Visible source (exported d).start := by
    rw [exported]
    cases habove : d.parent.filter fun above => above.kind == "export_statement" with
    | none => exact hown
    | some above =>
      obtain ⟨hparent', hexport⟩ := Option.filter_eq_some_iff.1 habove
      exact hparser _ _ _ htree _ (hparent above hparent') (.inr (beq_iff_eq.1 hexport))
  cases language with
  | rust => exact hown
  | _ => exact hexported

/-- A fixer that is asked about a declaration makes a stub for it unless it has one. -/
lemma generate_eq_none_iff {parser : Parser} {r : FixRequest} {parsed : Parsed} (hlanguage : r.language = some language)
    (hparsed : parser.parse language r.issue.filePath r.content = .ok parsed)
    (htarget : target? r.content (stub? language r.content r.placeholder.toList) parsed.declarations r.issue.line =
      some d) :
    generate parser r = .ok none ↔ stub? language r.content r.placeholder.toList d = none := by
  rw [generate, hlanguage]
  simp only [FixRequest.parse_eq_ok.2 hparsed, bind, Except.bind, pure, Except.pure, htarget, Option.bind_some]
  cases stub? language r.content r.placeholder.toList d <;> simp

end Stubs

/-- A placeholder on one line is known again, and it stays inside if it does not end the block. -/
lemma known_and_inside_of_flat (hflat : newlines placeholder = 0) (hmark : ¬ "*/".toList <:+: placeholder)
    (language : Language) : isKnownAgain language placeholder = true ∧ StaysInside language placeholder := by
  cases language with
  | rust =>
    rw [isKnownAgain, StaysInside, lines_of_flat hflat]
    exact ⟨rfl, nofun⟩
  | _ => exact ⟨rfl, hmark⟩

/-- The stub above a declaration, in any syntax tree whose declarations and exports start at visible characters. Once
it is in its place the line of the declaration starts right after it, and whether it is known there as documentation
depends on the placeholder alone: a block comment always is, and a line comment if the last of the placeholder's further
lines that is no decoration looks like documentation, or if there is none. A fixer that is asked about a declaration on
this line, by any parser, makes a second stub exactly if not. And all lines of the stub belong to one comment exactly if
the placeholder does not leave it: by a further line without mark, or by the mark that ends a block. A placeholder on
one line without this mark does neither. -/
theorem stub_above_is_documentation (parser : Parser) (hparser : parser.ShowsDeclarations) (r : FixRequest)
    (language : Language) (parsed : Parsed) (d : Declaration) (stub : Stub) (hlanguage : language ≠ .python)
    (hparsed : parser.parse language r.issue.filePath r.content = .ok parsed) (hd : d ∈ parsed.declarations)
    (hstub : stub? language r.content r.placeholder.toList d = some stub) :
    let text := splice r.content stub.position stub.position stub.text
    let start := stub.position + stub.text.length
    lineStart text (anchor language d + stub.text.length) = start ∧
    hasDocComment (text.take start) = isKnownAgain language r.placeholder.toList ∧
    (∀ (again : Parser) r' parsed' d', r'.content = text → r'.language = some language →
      again.parse language r'.issue.filePath r'.content = .ok parsed' →
      target? text (stub? language text r'.placeholder.toList) parsed'.declarations r'.issue.line = some d' →
      lineStart text (anchor language d') = start →
      (generate again r' = .ok none ↔ isKnownAgain language r.placeholder.toList = true)) ∧
    (IsComment language stub.text ↔ StaysInside language r.placeholder.toList) ∧
    (newlines r.placeholder.toList = 0 → ¬ "*/".toList <:+: r.placeholder.toList →
      isKnownAgain language r.placeholder.toList = true ∧ StaysInside language r.placeholder.toList) := by
  have hvisible := visible_anchor hparser hparsed hd
  obtain rfl := eq_of_stub?_eq_some hlanguage hstub
  set indent := indentation (r.content.drop (lineStart r.content (anchor language d)))
  have hblank : ∀ c ∈ indent, isBlank c = true := fun c hc => List.mem_takeWhile_imp hc
  have hflat : newlines indent = 0 := newlines_indentation hvisible
  have hends := endsLine_comment language r.placeholder.toList indent
  intro text start
  have htake : text.take start = r.content.take (lineStart r.content (anchor language d)) ++
      comment language r.placeholder.toList indent := by
    have hle := (lineStart_le r.content (anchor language d)).trans hvisible.le
    refine List.take_left' ?_
    rw [List.length_append, List.length_take_of_le hle]
  have hknown : hasDocComment (text.take start) = isKnownAgain language r.placeholder.toList := by
    rw [htake]
    exact hasDocComment_comment (endsLine_take_lineStart _ _) hblank hflat language _
  refine ⟨lineStart_splice hends hvisible.le, hknown, ?_, isComment_comment hblank hflat language _,
    fun hone hmark => known_and_inside_of_flat hone hmark language⟩
  intro again r' parsed' d' hcontent hlanguage' hparsed' htarget hline
  rw [← hcontent] at htarget hline
  rw [generate_eq_none_iff hlanguage' hparsed' htarget, stub?_eq_none_iff hlanguage, hline, hcontent, hknown]

namespace Specimen

/-- An issue about the documentation of what stands on a line. -/
def undocumented (path : String) (language : Language) (text placeholder : String) (line : Nat) : FixRequest :=
  ⟨⟨"i", "missing-docs", .low, path, some line, "", true⟩, text.toList, some language, placeholder⟩

/-- The tree of a class `class A {}` with nothing in it. -/
def classDeclaration (start : Nat) : SyntaxNode where
  kind := "class_declaration"
  field := some "declaration"
  start := start
  stop := start + 10
  children :=
    [token "class" start, { kind := "type_identifier", field := some "name", start := start + 6, stop := start + 7 },
      { kind := "class_body", field := some "body", start := start + 8, stop := start + 10,
        children := [token "\x7b" (start + 8), token "\x7d" (start + 9)] }]

/-- The tree of the class with the word `export` before it. -/
def classExport (start : Nat) : SyntaxNode where
  kind := "export_statement"
  start := start
  stop := start + 17
  children := [token "export" start, classDeclaration (start + 7)]

def exportedAt (start : Nat) : Declaration := ⟨classDeclaration (start + 7), some (classExport start), "A"⟩

/-- An exported class with blanks before it, and a placeholder of two lines. -/
def exported : FixRequest := undocumented "a.ts" .typeScript "f();\n  export class A \x7b\x7d\n" "Why?\n@see B" 2

def exportedAgain : FixRequest := undocumented "a.ts" .typeScript
  "f();\n  /**\n   * Why?\n@see B\n   */\n  export class A \x7b\x7d\n" "Why?\n@see B" 6

/-- The tree of a source with a statement on its first line and the exported class at a position. -/
def classAt (source : Text) (start : Nat) : SyntaxNode := treeOf "program" source
  [{ kind := "expression_statement", start := 0, stop := 4 }, classExport start]

/-- A function, and a placeholder with a line end after it. -/
def function : FixRequest := undocumented "a.rs" .rust "fn a() \x7b\x7d\n" "TODO\n" 1

def functionAgain : FixRequest := undocumented "a.rs" .rust "/// TODO\n\nfn a() \x7b\x7d\n" "TODO\n" 3

/-- The tree of a source with a function at a position. -/
def functionAt (source : Text) (start : Nat) : SyntaxNode := treeOf "source_file" source [functionItem start]

end Specimen

theorem stub_above_is_documentation_exported :
    ∃ stub, stub? .typeScript Specimen.exported.content Specimen.exported.placeholder.toList (Specimen.exportedAt 7) =
        some stub ∧
      splice Specimen.exported.content stub.position stub.position stub.text = Specimen.exportedAgain.content ∧
      hasDocComment (Specimen.exportedAgain.content.take (stub.position + stub.text.length)) = true ∧
      generate (parserOf Specimen.exportedAgain.content (Specimen.classAt Specimen.exportedAgain.content 36))
        Specimen.exportedAgain = .ok none ∧
      IsComment .typeScript stub.text := by
  let parsed (source : Text) (start : Nat) : Parsed := ⟨.typeScript, source, Specimen.classAt source start⟩
  have hdeclarations : (parsed Specimen.exported.content 7).declarations = [Specimen.exportedAt 7] :=
    List.mergeSort_singleton _
  have hdeclarations' : (parsed Specimen.exportedAgain.content 36).declarations = [Specimen.exportedAt 36] :=
    List.mergeSort_singleton _
  have hstub : stub? .typeScript Specimen.exported.content Specimen.exported.placeholder.toList (Specimen.exportedAt 7) =
      some ⟨5, "  /**\n   * Why?\n@see B\n   */\n".toList⟩ := by decide +kernel
  have hsplice : splice Specimen.exported.content 5 5 "  /**\n   * Why?\n@see B\n   */\n".toList =
      Specimen.exportedAgain.content := by decide +kernel
  obtain ⟨_, hknown, hagain, hcomment, _⟩ := stub_above_is_documentation
    (parserOf Specimen.exported.content (Specimen.classAt Specimen.exported.content 7))
    (showsDeclarations_parserOf (by decide +kernel)) Specimen.exported .typeScript (parsed _ 7) (Specimen.exportedAt 7) _
    (by decide) rfl (hdeclarations ▸ List.mem_cons_self) hstub
  rw [hsplice] at hknown hagain
  refine ⟨_, hstub, hsplice, hknown, ?_, hcomment.2 (by decide +kernel)⟩
  refine (hagain (parserOf _ (Specimen.classAt Specimen.exportedAgain.content 36)) _ (parsed _ 36) (Specimen.exportedAt 36)
    rfl rfl rfl ?_ (by decide +kernel)).2 rfl
  rw [hdeclarations']
  rfl

/-- A line end at the end of the placeholder leaves a line without mark: the stub is not known again, and a second one
is made. In a block a placeholder with the mark that ends it leaves the rest of the stub as code. -/
theorem placeholder_leaves_comment :
    let stubbed (r : FixRequest) (start : Nat) : Except FixerError (Option (List Change)) :=
      (generate (parserOf r.content (Specimen.functionAt r.content start)) r).map fun fix => fix.map Fix.changes
    let stub (p : Nat) : Edit := ⟨p, p, "/// TODO\n\n".toList⟩
    Config.normalizePlaceholder "TODO\n" = "TODO\n" ∧ Config.normalizePlaceholder "a */ b" = "a */ b" ∧
    stubbed Specimen.function 0 = .ok (some [(stub 0).toChange "a.rs" Specimen.function.content]) ∧
    (stub 0).apply Specimen.function.content = Specimen.functionAgain.content ∧
    hasDocComment "/// TODO\n\n".toList = false ∧ ¬ IsComment .rust "/// TODO\n\n".toList ∧
    stubbed Specimen.functionAgain 10 = .ok (some [(stub 10).toChange "a.rs" Specimen.functionAgain.content]) ∧
    stub? .typeScript Specimen.exported.content "a */ b".toList (Specimen.exportedAt 7) =
      some ⟨5, "  /**\n   * a */ b\n   */\n".toList⟩ ∧
    afterBlock? "  /**\n   * a */ b\n   */\n".toList = some " b\n   */\n".toList := by
  decide +kernel

end Documentation
end Autofix
