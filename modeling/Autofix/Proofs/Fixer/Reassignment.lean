import Autofix.Proofs.Apply.Next

/-! Variables that are made constant. The fixer asks that a statement declares plain names with values and that none
of the names is the whole target of an assignment or an update. A name in brackets, in a pattern or at the head of a
loop is written too, but is not looked for. -/
namespace Autofix
open Text Edit

namespace Refactoring
open Autofix.Specimen

/-- The nodes by which variables are named in the target of a write. -/
def nameKinds : List String := ["identifier", "shorthand_property_identifier_pattern"]

/-- The nodes around the names in the target of a write, each with the field that leads on to names. Without field all
its named children do. -/
def nestings : List (String × Option String) :=
  [("parenthesized_expression", none), ("array_pattern", none), ("object_pattern", none), ("rest_pattern", none),
    ("pair_pattern", some "value"), ("assignment_pattern", some "left"), ("object_assignment_pattern", some "left"),
    ("non_null_expression", none), ("as_expression", none), ("satisfies_expression", none), ("type_assertion", none)]

/-- The parts of a target that are targets themselves. -/
def targetParts (n : SyntaxNode) : List SyntaxNode :=
  match nestings.lookup n.kind with
  | some (some field) => n.children.filter fun child => child.field == some field
  | some none => n.namedChildren
  | none => []

/-- What is assigned to the target is assigned to the name, which stands in the target at any depth. -/
inductive Reaches : SyntaxNode → SyntaxNode → Prop
  | name {n : SyntaxNode} : n.kind ∈ nameKinds → Reaches n n
  | part {target part name : SyntaxNode} : part ∈ targetParts target → Reaches part name → Reaches target name

/-- The target of an assignment, of an update or of a loop over elements or keys, if the loop declares no variable of
its own. -/
def writeTarget? (n : SyntaxNode) : Option SyntaxNode :=
  if n.kind = "for_in_statement" then
    if (n.childOf? "kind").isSome then none else n.childOf? "left"
  else (writes.lookup n.kind).bind n.childOf?

/-- The node writes the variable with this name. -/
def Writes (source : Text) (n : SyntaxNode) (word : Text) : Prop :=
  ∃ target name, writeTarget? n = some target ∧ Reaches target name ∧ name.textIn source = word

/-- A write at the head of a loop, or of names that stand inside of its target. -/
def IsHidden (n : SyntaxNode) : Prop :=
  n.kind = "for_in_statement" ∨ ∃ target, writeTarget? n = some target ∧
    target.kind ∈ "shorthand_property_identifier_pattern" :: nestings.map Prod.fst

/-- The statement declares plain variables with values, and all writes of them in the source are hidden ones. -/
structure IsConstant (parsed : Parsed) (statement : SyntaxNode) : Prop where
  declares : declarators statement ≠ []
  plain : ∀ d ∈ declarators statement, (d.childOf? "value").isSome = true ∧
    ∃ name, d.childOf? "name" = some name ∧ name.kind = "identifier" ∧
      ∀ n ∈ parsed.root.nodes, Writes parsed.source n (name.textIn parsed.source) → IsHidden n

section Targets
variable {source : Text} {n target name : SyntaxNode} {word : Text}

/-- A target that is no plain name is one of the nestings, or the short form of a property. -/
lemma Reaches.kind (h : Reaches target name) :
    target.kind = "identifier" ∨ target.kind ∈ "shorthand_property_identifier_pattern" :: nestings.map Prod.fst := by
  cases h with
  | name hkind =>
    exact (List.mem_cons.1 hkind).imp_right fun hshort => List.mem_cons.2 (.inl (List.mem_singleton.1 hshort))
  | part hpart _ =>
    rw [targetParts] at hpart
    cases hlookup : nestings.lookup target.kind with
    | none =>
      rw [hlookup] at hpart
      cases hpart
    | some field =>
      obtain ⟨before, after, hentry, _⟩ := List.lookup_eq_some_iff.1 hlookup
      refine .inr (List.mem_cons_of_mem _ (List.mem_map.2 ⟨(target.kind, field), ?_, rfl⟩))
      rw [hentry]
      exact List.mem_append_right _ List.mem_cons_self

/-- A plain name is the whole target. -/
lemma Reaches.eq_of_identifier (hkind : target.kind = "identifier") (h : Reaches target name) : name = target := by
  cases h with
  | name => rfl
  | part hpart _ =>
    rw [targetParts, hkind] at hpart
    cases hpart

lemma mem_writes {kind field : String} : (kind, field) ∈ writes ↔ writes.lookup kind = some field := by
  refine ⟨fun h => ?_, fun h => ?_⟩
  · simp only [writes, List.mem_cons, List.not_mem_nil, or_false, Prod.mk.injEq] at h
    rcases h with ⟨rfl, rfl⟩ | ⟨rfl, rfl⟩ | ⟨rfl, rfl⟩ <;> rfl
  · obtain ⟨before, after, hentry, _⟩ := List.lookup_eq_some_iff.1 h
    rw [hentry]
    exact List.mem_append_right _ List.mem_cons_self

/-- What is looked for are the writes that have a plain name as their target. -/
lemma isWritten_iff {parsed : Parsed} {names : List Text} : isWritten parsed names = true ↔
    ∃ n ∈ parsed.root.nodes, n.kind ≠ "for_in_statement" ∧ ∃ target, writeTarget? n = some target ∧
      target.kind = "identifier" ∧ target.textIn parsed.source ∈ names := by
  simp only [isWritten, List.any_eq_true, Option.any_eq_true, Bool.and_eq_true, beq_iff_eq, List.contains_iff_mem,
    Parsed.mem_nodesOfKind]
  constructor
  · rintro ⟨⟨kind, field⟩, hform, n, ⟨hn, rfl⟩, target, htarget, hkind, hword⟩
    have hloop : n.kind ≠ "for_in_statement" := fun hloop => by simp [hloop, writes] at hform
    refine ⟨n, hn, hloop, target, ?_, hkind, hword⟩
    rw [writeTarget?, if_neg hloop, mem_writes.1 hform]
    exact htarget
  · rintro ⟨n, hn, hloop, target, htarget, hkind, hword⟩
    rw [writeTarget?, if_neg hloop] at htarget
    obtain ⟨field, hfield, htarget⟩ := Option.bind_eq_some_iff.1 htarget
    exact ⟨(n.kind, field), mem_writes.2 hfield, n, ⟨hn, rfl⟩, target, htarget, hkind, hword⟩

/-- What is not looked for are the hidden writes. -/
theorem isWritten_eq_false {parsed : Parsed} {names : List Text} : isWritten parsed names = false ↔
    ∀ word ∈ names, ∀ n ∈ parsed.root.nodes, Writes parsed.source n word → IsHidden n := by
  rw [← Bool.not_eq_true, isWritten_iff]
  constructor
  · rintro hnone word hword n hn ⟨target, name, htarget, hreaches, rfl⟩
    by_cases hloop : n.kind = "for_in_statement"
    · exact .inl hloop
    · rcases hreaches.kind with hkind | hkind
      · rw [hreaches.eq_of_identifier hkind] at hword
        exact absurd ⟨n, hn, hloop, target, htarget, hkind, hword⟩ hnone
      · exact .inr ⟨target, htarget, hkind⟩
  · rintro hhidden ⟨n, hn, hloop, target, htarget, hkind, hword⟩
    have hwrites : Writes parsed.source n (target.textIn parsed.source) :=
      ⟨target, target, htarget, .name (List.mem_cons.2 (.inl hkind)), rfl⟩
    rcases hhidden _ hword n hn hwrites with hfor | ⟨target', htarget', hkind'⟩
    · exact hloop hfor
    · obtain rfl := Option.some.inj (htarget.symm.trans htarget')
      rw [hkind] at hkind'
      revert hkind'
      decide

end Targets

section Declarators
variable {parsed : Parsed} {source : Text} {statement d : SyntaxNode} {word : Text}

lemma plainName?_eq_some : plainName? source d = some word ↔ (d.childOf? "value").isSome = true ∧
    ∃ name, d.childOf? "name" = some name ∧ name.kind = "identifier" ∧ name.textIn source = word := by
  rw [plainName?]
  cases d.childOf? "name" with
  | none => simp
  | some name => simp [and_assoc, and_left_comm]

lemma mapM_eq_some {α β : Type} {f : α → Option β} {as : List α} {bs : List β} :
    as.mapM f = some bs ↔ (∀ a ∈ as, (f a).isSome = true) ∧ as.filterMap f = bs := by
  induction as generalizing bs with
  | nil => simp
  | cons a as ih =>
    cases ha : f a with
    | none => simp [ha]
    | some b => simp [ha, ih, Option.bind_eq_some_iff, and_assoc]

/-- What is asked of a statement before its variables are made constant. -/
theorem neverReassigned_iff : neverReassigned parsed statement = true ↔ IsConstant parsed statement := by
  rw [neverReassigned]
  cases hnames : (declarators statement).mapM (plainName? parsed.source) with
  | none =>
    refine iff_of_false Bool.false_ne_true fun h => ?_
    have hall : ∀ d ∈ declarators statement, (plainName? parsed.source d).isSome = true := fun d hd => by
      obtain ⟨hvalue, name, hname, hkind, _⟩ := h.plain d hd
      rw [plainName?_eq_some.2 ⟨hvalue, name, hname, hkind, rfl⟩]
      rfl
    rw [mapM_eq_some.2 ⟨hall, rfl⟩] at hnames
    cases hnames
  | some names =>
    obtain ⟨hall, rfl⟩ := mapM_eq_some.1 hnames
    simp only [Bool.and_eq_true, Bool.not_eq_true', isWritten_eq_false, List.isEmpty_eq_false_iff]
    constructor
    · rintro ⟨hne, hhidden⟩
      refine ⟨fun hnil => hne (by rw [hnil]; rfl), fun d hd => ?_⟩
      obtain ⟨word, hword⟩ := Option.isSome_iff_exists.1 (hall d hd)
      obtain ⟨hvalue, name, hname, hkind, rfl⟩ := plainName?_eq_some.1 hword
      exact ⟨hvalue, name, hname, hkind, hhidden _ (List.mem_filterMap.2 ⟨d, hd, hword⟩)⟩
    · rintro ⟨hne, hplain⟩
      constructor
      · obtain ⟨d, hd⟩ := List.exists_mem_of_ne_nil _ hne
        obtain ⟨word, hword⟩ := Option.isSome_iff_exists.1 (hall d hd)
        exact List.ne_nil_of_mem (List.mem_filterMap.2 ⟨d, hd, hword⟩)
      · intro word hword
        obtain ⟨d, hd, hname⟩ := List.mem_filterMap.1 hword
        obtain ⟨_, name, hfound, _, hhidden⟩ := hplain d hd
        obtain ⟨_, name', hfound', _, rfl⟩ := plainName?_eq_some.1 hname
        obtain rfl := Option.some.inj (hfound.symm.trans hfound')
        exact hhidden

end Declarators

section Fixes
variable {parser : Parser} {r : FixRequest} {language : Language} {parsed : Parsed} {statement token : SyntaxNode}
  {fix : Fix}

/-- The rule by which variables are made constant. -/
def constantRule : Rule := ⟨"lexical_declaration", "let", "const", 80⟩

lemma rule?_preferConst : rule? preferConst = some constantRule := by simp [rule?, constantRule]

lemma applies_constantRule : constantRule.applies parsed statement = true ↔
    (∃ token, statement.children.head? = some token ∧ token.kind = "let") ∧ IsConstant parsed statement := by
  simp only [Rule.applies, constantRule, Bool.and_eq_true, Option.isSome_iff_exists, keywordToken?_eq_some,
    bne_self_eq_false, Bool.false_or, neverReassigned_iff]

/-- The fixer replaces the first token of the statement that the issue is about, if there is such a statement. -/
lemma generate_preferConst (htype : r.issue.type = preferConst) (hlanguage : r.language = some language)
    (hecma : language.isEcmaScript = true) (hparsed : parser.parse language r.issue.filePath r.content = .ok parsed) :
    generate parser r = .ok (fix? r constantRule parsed) := by
  simp only [generate, hlanguage, Option.filter, hecma, if_true, FixRequest.parse_eq_ok.2 hparsed, htype,
    rule?_preferConst, Option.bind_some]
  rfl

lemma fix?_eq_some (h : fix? r constantRule parsed = some fix) :
    ∃ statement token, target? constantRule parsed r.issue.line = some statement ∧
      statement.children.head? = some token ∧ token.kind = "let" ∧
      fix.MakesEdits r [⟨token.start, token.stop, "const".toList⟩] := by
  obtain ⟨statement, hstatement, h⟩ := Option.bind_eq_some_iff.1 h
  obtain ⟨token, htoken, h⟩ := Option.bind_eq_some_iff.1 h
  obtain ⟨hhead, hkind⟩ := keywordToken?_eq_some.1 htoken
  obtain rfl := Option.some.inj h
  exact ⟨statement, token, hstatement, hhead, hkind, Fix.changes_create ..⟩

lemma exists_fix? (h : target? constantRule parsed r.issue.line = some statement)
    (happlies : constantRule.applies parsed statement = true) : ∃ fix, fix? r constantRule parsed = some fix := by
  obtain ⟨token, hlet⟩ := (applies_constantRule.1 happlies).1
  have htoken : keywordToken? statement constantRule.keyword = some token := keywordToken?_eq_some.2 hlet
  rw [fix?, h, Option.bind_eq_bind, Option.bind_some, htoken]
  exact ⟨_, rfl⟩

/-- The fix for an issue about a variable that could be constant, for any parser and any syntax tree that it makes. It
turns the `let` of a statement on the line of the issue, if it gives one, into `const`. All variables of the statement
are plain names with values, and where one of them is written again, it is at the head of a loop or inside of a pattern
or of brackets. For such a statement the fix is made: for the first on the line of the issue, or without line for one
anywhere. -/
theorem preferConst_sees_plain_writes (parser : Parser) (r : FixRequest) (language : Language) (parsed : Parsed)
    (htype : r.issue.type = preferConst) (hlanguage : r.language = some language)
    (hecma : language.isEcmaScript = true) (hparsed : parser.parse language r.issue.filePath r.content = .ok parsed) :
    let isLet (statement token : SyntaxNode) := statement.children.head? = some token ∧ token.kind = "let"
    (∀ fix, generate parser r = .ok (some fix) →
      ∃ statement ∈ parsed.nodesOfKind "lexical_declaration", ∃ token, isLet statement token ∧
        IsConstant parsed statement ∧ (∀ line, r.issue.line = some line → lineOf r.content statement.start = line) ∧
        fix.MakesEdits r [⟨token.start, token.stop, "const".toList⟩]) ∧
    (∀ line statement token, r.issue.line = some line →
      parsed.nodeOnLine? "lexical_declaration" line = some statement → isLet statement token →
      IsConstant parsed statement →
      ∃ fix, generate parser r = .ok (some fix) ∧ fix.MakesEdits r [⟨token.start, token.stop, "const".toList⟩]) ∧
    (r.issue.line = none → ∀ statement ∈ parsed.nodesOfKind "lexical_declaration", ∀ token, isLet statement token →
      IsConstant parsed statement → ∃ fix, generate parser r = .ok (some fix)) := by
  intro isLet
  rw [generate_preferConst htype hlanguage hecma hparsed]
  have hsource := (Parser.of_parse hparsed).1
  refine ⟨fun fix hfix => ?_, fun line statement token hline hfirst hlet hconstant => ?_,
    fun hline statement hstatement token hlet hconstant => ?_⟩
  · obtain ⟨statement, token, htarget, hhead, hkind, hmakes⟩ := fix?_eq_some (Except.ok.inj hfix)
    obtain ⟨hmem, happlies, hline⟩ := mem_of_target? htarget
    rw [hsource] at hline
    exact ⟨statement, hmem, token, ⟨hhead, hkind⟩, (applies_constantRule.1 happlies).2, hline, hmakes⟩
  · have happlies : constantRule.applies parsed statement = true := applies_constantRule.2 ⟨⟨token, hlet⟩, hconstant⟩
    have htarget : target? constantRule parsed r.issue.line = some statement := by
      rw [hline]
      exact Option.filter_eq_some_iff.2 ⟨hfirst, happlies⟩
    obtain ⟨fix, hfix⟩ := exists_fix? htarget happlies
    obtain ⟨statement', token', htarget', hhead, _, hmakes⟩ := fix?_eq_some hfix
    obtain rfl := Option.some.inj (htarget.symm.trans htarget')
    obtain rfl := Option.some.inj (hlet.1.symm.trans hhead)
    exact ⟨fix, congrArg _ hfix, hmakes⟩
  · have happlies : constantRule.applies parsed statement = true := applies_constantRule.2 ⟨⟨token, hlet⟩, hconstant⟩
    obtain ⟨found, hfound⟩ := Option.isSome_iff_exists.1 (List.find?_isSome.2 ⟨statement, hstatement, happlies⟩)
    obtain ⟨fix, hfix⟩ := exists_fix? (r := r) (by rw [hline]; exact hfound) (List.find?_some hfound)
    exact ⟨fix, congrArg _ hfix⟩

end Fixes

namespace Specimen

/-- The fixer is asked about the variables on the first line of a script. -/
def asked (t : Text) : FixRequest :=
  ⟨⟨"i", "prefer-const", .low, "a.ts", some 1, "", true⟩, t, some .typeScript, "TODO: document"⟩

def identifier (field : Option String) (start : Nat) : SyntaxNode :=
  { kind := "identifier", field, start, stop := start + 1 }

/-- The tree of `let a = 1;` at the start of a source. -/
def declared : SyntaxNode where
  kind := "lexical_declaration"
  start := 0
  stop := 10
  children :=
    [{ token "let" 0 with field := some "kind" },
      { kind := "variable_declarator", start := 4, stop := 9,
        children := [identifier (some "name") 4, token "=" 6,
          { kind := "number", field := some "value", start := 8, stop := 9 }] },
      token ";" 9]

/-- The tree of a statement that assigns a value with this tree, on the line below. -/
def assigned (target value : SyntaxNode) : SyntaxNode where
  kind := "expression_statement"
  start := 11
  stop := value.stop + 1
  children :=
    [{ kind := "assignment_expression", start := 11, stop := value.stop,
       children := [{ target with field := some "left" }, token "=" (target.stop + 1),
         { value with field := some "right" }] },
      token ";" value.stop]

/-- Another variable is assigned. -/
def plain : Text := "let a = 1;\nb = a;\n".toList

def plainTree : SyntaxNode := treeOf "program" plain [declared, assigned (identifier none 11) (identifier none 15)]

/-- A pattern assigns the variable. -/
def pattern : Text := "let a = 1;\n[a] = [2];\n".toList

def patternStatement : SyntaxNode := assigned
  { kind := "array_pattern", start := 11, stop := 14, children := [token "[" 11, identifier none 12, token "]" 13] }
  { kind := "array", start := 17, stop := 20,
    children := [token "[" 17, { kind := "number", start := 18, stop := 19 }, token "]" 19] }

def patternTree : SyntaxNode := treeOf "program" pattern [declared, patternStatement]

lemma writes_pattern : ∃ n ∈ patternTree.nodes, Writes pattern n ['a'] := by
  have hstatement : patternStatement ∈ patternTree.nodes :=
    SyntaxNode.mem_nodes_of_mem_children (SyntaxNode.self_mem_nodes _) (List.mem_cons_of_mem _ List.mem_cons_self)
  have hreaches : ∀ target, target.kind = "array_pattern" → identifier none 12 ∈ target.namedChildren →
      Reaches target (identifier none 12) := fun target hkind hname =>
    .part (by rw [targetParts, hkind]; exact hname) (.name List.mem_cons_self)
  exact ⟨_, SyntaxNode.mem_nodes_of_mem_children hstatement List.mem_cons_self, _, _, rfl,
    hreaches _ rfl List.mem_cons_self, by decide +kernel⟩

end Specimen

theorem preferConst_sees_plain_writes_elsewhere :
    let parsed : Parsed := ⟨.typeScript, Specimen.plain, Specimen.plainTree⟩
    ∃ fix, generate (parserOf Specimen.plain Specimen.plainTree) (Specimen.asked Specimen.plain) = .ok (some fix) ∧
      ∃ statement token, statement.children.head? = some token ∧ IsConstant parsed statement ∧
        fix.MakesEdits (Specimen.asked Specimen.plain) [⟨token.start, token.stop, "const".toList⟩] := by
  intro parsed
  have hmade : (made (fixer (parserOf Specimen.plain Specimen.plainTree)) (Specimen.asked Specimen.plain)).length = 1 := by
    decide +kernel
  obtain ⟨fix, hfix⟩ := List.length_eq_one_iff.1 hmade
  have hgenerate : generate (parserOf Specimen.plain Specimen.plainTree) (Specimen.asked Specimen.plain) =
      .ok (some fix) := mem_made (by rw [hfix]; exact List.mem_cons_self)
  obtain ⟨statement, _, token, ⟨hhead, _⟩, hconstant, _, hmakes⟩ := (preferConst_sees_plain_writes
    (parserOf Specimen.plain Specimen.plainTree) (Specimen.asked Specimen.plain) .typeScript parsed rfl rfl rfl rfl).1
    fix hgenerate
  exact ⟨fix, hgenerate, statement, token, hhead, hconstant, hmakes⟩

/-- A variable that a pattern assigns is made constant. -/
theorem pattern_write_is_not_seen :
    (declarators Specimen.declared).filterMap (plainName? Specimen.pattern) = [['a']] ∧
    (∃ n ∈ Specimen.patternTree.nodes, Writes Specimen.pattern n ['a']) ∧
    (made (fixer (parserOf Specimen.pattern Specimen.patternTree)) (Specimen.asked Specimen.pattern)).map Fix.changes =
      [[toChange "a.ts" Specimen.pattern ⟨0, 3, "const".toList⟩]] :=
  ⟨by decide +kernel, Specimen.writes_pattern, by decide +kernel⟩

end Refactoring
end Autofix
