import Autofix.Fixer.Basic
import Autofix.Proofs.Syntax.Node
import Autofix.Proofs.Text.Trim

/-! What is relied on of a parser: the nodes of its trees stand in the source. -/
namespace Autofix
open Text

/-- The node stands in the source. If it is an import, it takes up some of the source, and if it is a keyword of
variable statements, the source has this word there. -/
structure SyntaxNode.StandsIn (source : Text) (n : SyntaxNode) : Prop where
  imports : ∀ g : Grammar, n.kind ∈ g.importKinds → n.start < n.stop ∧ n.stop ≤ source.length
  keyword : n.kind = "let" ∨ n.kind = "var" → n.stop ≤ source.length ∧ n.textIn source = n.kind.toList

instance (source : Text) (n : SyntaxNode) : Decidable (n.StandsIn source) :=
  decidable_of_iff
    ((∀ g ∈ Grammar.standard, n.kind ∈ g.importKinds → n.start < n.stop ∧ n.stop ≤ source.length) ∧
      (n.kind = "let" ∨ n.kind = "var" → n.stop ≤ source.length ∧ n.textIn source = n.kind.toList))
    ⟨fun h => ⟨fun g => h.1 g (by cases g <;> decide), h.2⟩, fun h => ⟨fun g _ => h.imports g, h.keyword⟩⟩

/-- All nodes of the trees that the parser makes stand in their sources. -/
def Parser.IsSound (parser : Parser) : Prop :=
  ∀ g source root, parser.tree? g source = some root → ∀ n ∈ root.nodes, n.StandsIn source

/-- All declarations and exports in the trees that the parser makes start at visible characters. -/
def Parser.ShowsDeclarations (parser : Parser) : Prop :=
  ∀ g source root, parser.tree? g source = some root → ∀ n ∈ root.nodes,
    n.kind ∈ g.declarationKinds.map Prod.fst ∨ n.kind = "export_statement" → Visible source n.start

section Parse
variable {parser : Parser} {language : Language} {path : String} {source : Text} {parsed : Parsed}

/-- A tree is made for the whole source by one of the grammars. -/
lemma Parser.of_parse (h : parser.parse language path source = .ok parsed) :
    parsed.source = source ∧ parser.tree? parsed.grammar source = some parsed.root := by
  rw [Parser.parse] at h
  split at h
  · cases h
  · split at h
    · split at h
      · next htree =>
        cases h
        exact ⟨rfl, htree⟩
      · cases h
    · cases h

lemma Parser.IsSound.standsIn (hparser : parser.IsSound) (h : parser.parse language path source = .ok parsed)
    {n : SyntaxNode} (hn : n ∈ parsed.root.nodes) : n.StandsIn source :=
  hparser _ _ _ (Parser.of_parse h).2 n hn

lemma Parsed.mem_imports {n : SyntaxNode} (h : n ∈ parsed.imports) :
    n ∈ parsed.root.nodes ∧ n.kind ∈ parsed.grammar.importKinds := by
  obtain ⟨hn, hkind⟩ := List.mem_filter.1 (List.mem_mergeSort.1 h)
  exact ⟨hn, List.contains_iff_mem.1 (Bool.and_eq_true_iff.1 hkind).2⟩

/-- A declaration is a node of the tree, and so is the node above it. -/
lemma Parsed.mem_declarations {d : Declaration} (h : d ∈ parsed.declarations) :
    d.node ∈ parsed.root.nodes ∧ d.node.kind ∈ parsed.grammar.declarationKinds.map Prod.fst ∧
      ∀ above ∈ d.parent, above ∈ parsed.root.nodes := by
  obtain ⟨⟨above, n⟩, hplace, hd⟩ := List.mem_flatMap.1 (List.mem_mergeSort.1 h)
  obtain ⟨kinds, hkinds, hd⟩ := List.mem_flatMap.1 hd
  obtain ⟨hmem, hkind⟩ := List.mem_filter.1 hkinds
  obtain ⟨name, _, rfl⟩ := List.mem_map.1 hd
  obtain ⟨hn, habove⟩ := SyntaxNode.mem_nodes_of_mem_walk hplace
  refine ⟨hn, List.mem_map.2 ⟨kinds, hmem, ?_⟩, fun p hp => (habove p hp).resolve_left nofun⟩
  exact (beq_iff_eq.1 (Bool.and_eq_true_iff.1 hkind).2).symm

lemma Parsed.mem_nodesOfKind {kind : String} {n : SyntaxNode} :
    n ∈ parsed.nodesOfKind kind ↔ n ∈ parsed.root.nodes ∧ n.kind = kind := by
  rw [Parsed.nodesOfKind, List.mem_filter, beq_iff_eq]

/-- The imports of a source are stretches of it that are not empty. -/
lemma Parser.IsSound.imports (hparser : parser.IsSound) (h : parser.parse language path source = .ok parsed)
    {s : Span} (hs : s ∈ parsed.imports.map SyntaxNode.span) : s.start < s.stop ∧ s.stop ≤ source.length := by
  obtain ⟨n, hn, rfl⟩ := List.mem_map.1 hs
  obtain ⟨hmem, hkind⟩ := Parsed.mem_imports hn
  exact (hparser.standsIn h hmem).imports _ hkind

end Parse

section Request
variable {parser : Parser} {r : FixRequest} {language : Language} {parsed : Parsed} {f : Fix}

lemma FixRequest.parse_eq_ok :
    r.parse parser language = .ok parsed ↔ parser.parse language r.issue.filePath r.content = .ok parsed := by
  rw [FixRequest.parse]
  cases parser.parse language r.issue.filePath r.content <;> simp [Except.mapError]

/-- A fix that is made from a syntax tree is made from one of the text. -/
lemma exists_parsed_of {make : Parsed → Option Fix}
    (h : (do let parsed ← r.parse parser language; return make parsed : Except FixerError (Option Fix)) =
      .ok (some f)) :
    ∃ parsed, parser.parse language r.issue.filePath r.content = .ok parsed ∧ make parsed = some f := by
  cases hparsed : r.parse parser language with
  | error =>
    rw [hparsed] at h
    cases h
  | ok parsed =>
    rw [hparsed] at h
    exact ⟨parsed, FixRequest.parse_eq_ok.1 hparsed, Except.ok.inj h⟩

end Request

namespace Specimen

/-- A parser that knows the tree of one source. -/
def parserOf (source : Text) (root : SyntaxNode) : Parser where
  tree? _ t := if t = source then some root else none

lemma parse_parserOf {language : Language} {path : String} {g : Grammar}
    (hgrammar : Grammar.select? Grammar.standard language path = some g) (source : Text) (root : SyntaxNode) :
    (parserOf source root).parse language path source = .ok ⟨g, source, root⟩ := by
  rw [Parser.parse]
  simp [parserOf, hgrammar]

lemma of_parserOf {source t : Text} {root root' : SyntaxNode} {g : Grammar}
    (h : (parserOf source root).tree? g t = some root') : t = source ∧ root' = root := by
  simp only [parserOf] at h
  split at h
  · next ht => exact ⟨ht, (Option.some.inj h).symm⟩
  · cases h

lemma isSound_parserOf {source : Text} {root : SyntaxNode} (h : ∀ n ∈ root.nodes, n.StandsIn source) :
    (parserOf source root).IsSound := by
  intro g t root' htree
  obtain ⟨rfl, rfl⟩ := of_parserOf htree
  exact h

lemma showsDeclarations_parserOf {source : Text} {root : SyntaxNode}
    (h : ∀ n ∈ root.nodes, isBlank ((source.drop n.start).headD ' ') = false) :
    (parserOf source root).ShowsDeclarations := by
  intro g t root' htree n hn _
  obtain ⟨rfl, rfl⟩ := of_parserOf htree
  have hblank := h n hn
  cases hhead : (t.drop n.start).head? with
  | none =>
    rw [List.headD_eq_head?_getD, hhead] at hblank
    cases hblank
  | some c =>
    rw [List.headD_eq_head?_getD, hhead] at hblank
    exact ⟨c, hhead, hblank⟩

/-- A token that is spelled as its kind. -/
def token (kind : String) (start : Nat) : SyntaxNode :=
  { kind, isNamed := false, start, stop := start + kind.toList.length }

/-- The tree of a source with these parts. -/
def treeOf (kind : String) (source : Text) (children : List SyntaxNode) : SyntaxNode :=
  { kind, start := 0, stop := source.length, children }

/-- The tree of a function `fn a() {}` with nothing in it. -/
def functionItem (start : Nat) : SyntaxNode where
  kind := "function_item"
  start := start
  stop := start + 9
  children :=
    [token "fn" start, { kind := "identifier", field := some "name", start := start + 3, stop := start + 4 },
      { kind := "parameters", field := some "parameters", start := start + 4, stop := start + 6,
        children := [token "(" (start + 4), token ")" (start + 5)] },
      { kind := "block", field := some "body", start := start + 7, stop := start + 9,
        children := [token "\x7b" (start + 7), token "\x7d" (start + 8)] }]

end Specimen
end Autofix
