import Autofix.Outline.Parser
import Autofix.Proofs.Outline.Ecma.Reader

/-! What the parser of the program finds in a source of any of the languages stands there. -/
namespace Autofix.Outline
open Text

namespace Python
variable {source : Text} {s s' : Scan} {trees line rest : List Tree} {t : Tree}

lemma step_of (h : s.Of source) (hs : step s = some s') : s'.Of source := by
  simp only [step] at hs
  split at hs
  · cases hs
    exact h
  · cases hs
    exact h.newLine
  · cases hs
    exact h.skip _
  · cases hs
    exact h.skip _
  · cases hs
    exact h.skipTo _
  · next hrest =>
    cases hs
    exact h.emit (h.visible hrest (by decide)) _ _
  · next hrest =>
    split at hs
    · cases hs
      exact h.skip _
    · next hblank =>
      have hv := h.visible hrest (by simpa using hblank)
      split at hs
      · obtain ⟨rest, _, rfl⟩ := Option.map_eq_some_iff.1 hs
        exact h.emitTo hv _ rest
      split at hs
      · split at hs
        · cases hs
          exact h.emitTo hv _ _
        · cases hs
          exact h.emitTo hv _ _
      split at hs
      · cases hs
        exact h.emitTo hv _ _
      · cases hs
        exact h.emit hv _ _

lemma flatten_logicalLines (trees : List Tree) : (logicalLines trees).flatten = trees := by
  induction trees with
  | nil => rfl
  | cons t rest ih =>
    rw [logicalLines]
    split
    · next hlines => simp_all
    · next hlines =>
      rw [hlines] at ih
      split <;> simp_all

lemma flatten_statements_sublist (line : List Tree) : (statements line).flatten.Sublist line := by
  induction line with
  | nil => exact List.Sublist.refl _
  | cons t rest ih =>
    rw [statements]
    split
    · exact List.nil_sublist _
    · next hstatements =>
      rw [hstatements] at ih
      split
      · exact ih.cons _
      · exact ih.cons_cons _

lemma importOf_of (h : TreesOf source (t :: rest)) (ht : t.start < t.stop) {kind : String}
    (hkind : kind ≠ "let" ∧ kind ≠ "var" ∧ isDeclaring kind = false) :
    ∀ m ∈ (importOf kind t rest).nodes, Found source m := by
  have hmem : (t :: rest).getLast?.getD t ∈ t :: rest := by
    rw [List.getLast?_eq_some_getLast (List.cons_ne_nil _ _)]
    exact List.getLast_mem _
  have hof := h.of _ hmem
  refine found_import hkind ?_ hof.stop_le
  rcases List.mem_cons.1 hmem with heq | hlater
  · rw [heq]
    exact ht
  · exact ht.trans_le ((h.stop_le_start hlater).trans hof.start_le_stop)

lemma import?_of {n : SyntaxNode} (h : TreesOf source line) (hi : import? line = some n) :
    ∀ m ∈ n.nodes, Found source m := by
  rw [import?.eq_def] at hi
  split at hi
  · split_ifs at hi with himport hfrom
    · cases hi
      exact importOf_of h (Tree.start_lt_stop (.inl himport) (by decide)) (by decide)
    · cases hi
      exact importOf_of h (Tree.start_lt_stop (.inl (Bool.and_eq_true_iff.1 hfrom).1) (by decide)) (by decide)
  · cases hi

lemma found_statementNode (first : Tree) (isDocumentation : Bool) :
    ∀ m ∈ (statementNode first isDocumentation).nodes, Found source m := by
  rw [statementNode]
  split
  · rw [SyntaxNode.forall_mem_nodes]
    refine ⟨.of_isPlain (show isPlain "expression_statement" = true by decide), fun child hchild => ?_⟩
    obtain rfl := List.mem_singleton.1 hchild
    exact found_nodeOf (by decide) _ _
  · exact found_nodeOf (by decide) _ _

lemma body?_of (line : List Tree) (next : Option (List Tree)) : ∀ b ∈ body? line next, ∀ m ∈ b.nodes, Found source m := by
  intro b hb
  obtain ⟨first, _, rfl⟩ := Option.map_eq_some_iff.1 hb
  rw [SyntaxNode.forall_mem_nodes]
  refine ⟨.of_isPlain (show isPlain "block" = true by decide), fun child hchild => ?_⟩
  obtain rfl := List.mem_singleton.1 hchild
  exact found_statementNode _ _

lemma definitionKind?_of {kind : String} (h : definitionKind? t = some kind) : isDeclarationOnly kind = true := by
  rw [definitionKind?] at h
  split_ifs at h
  · cases h
    decide
  · cases h
    decide

lemma definition?_of {kind : String} {name : Option Tree} (h : definition? line = some (kind, name)) :
    isDeclarationOnly kind = true := by
  rw [definition?.eq_def] at h
  split at h
  · split at h
    · next hkind =>
      cases h
      exact definitionKind?_of hkind
    · split at h
      · split at h
        · cases h
          decide
        · cases h
      · cases h
  · cases h

lemma lineOutline_of (h : TreesOf source line) (next : Option (List Tree)) : (lineOutline line next).Of source := by
  have himports : Outline.Of source ((statements line).filterMap import?) := by
    intro n hn
    obtain ⟨statement, hstatement, hi⟩ := List.mem_filterMap.1 hn
    exact import?_of (h.sublist ((List.sublist_flatten_of_mem hstatement).trans (flatten_statements_sublist line))) hi
  simp only [lineOutline]
  split
  · next hfirst hdefinition =>
    split
    · exact himports.append (.one (found_declaration (definition?_of hdefinition) (by decide)
        (h.of _ (List.mem_of_head? hfirst)).visible (body?_of line next)))
    · exact himports.append .broken
  · exact himports

lemma linesOutline_of {lines : List (List Tree)} (h : ∀ line ∈ lines, TreesOf source line) :
    (linesOutline lines).Of source := by
  induction lines with
  | nil => exact .nil
  | cons line lines ih =>
    rw [List.forall_mem_cons] at h
    exact (lineOutline_of h.1 _).append (ih h.2)

theorem outline_of (source : Text) : (outline source).Of source := by
  rw [outline]
  split
  · next trees htrees =>
    have hof := treesWith?_of step_of htrees
    refine linesOutline_of fun line hline => hof.sublist ?_
    rw [← flatten_logicalLines trees]
    exact List.sublist_flatten_of_mem hline
  · exact .broken

end Python

namespace Rust
variable {source : Text} {s s' : Scan} {trees rest : List Tree} {t : Tree}

lemma wordStep_of (h : s.Of source) (hv : Visible source s.position) (word after : Text) :
    (wordStep s word after).Of source := by
  rw [wordStep.eq_def]
  split
  · exact h.emitTo hv _ _
  · split
    · exact h.emitTo hv _ _
    · exact h.emitTo hv _ _
  · exact h.emitTo hv _ _

lemma step_of (h : s.Of source) (hs : step s = some s') : s'.Of source := by
  simp only [step] at hs
  split at hs
  · cases hs
    exact h
  · cases hs
    exact h.newLine
  · cases hs
    exact h.skipTo _
  · obtain ⟨rest, _, rfl⟩ := Option.map_eq_some_iff.1 hs
    exact h.skipTo rest
  · next hrest =>
    obtain ⟨rest, _, rfl⟩ := Option.map_eq_some_iff.1 hs
    exact h.emitTo (h.visible hrest (by decide)) _ rest
  · next hrest =>
    have hv := h.visible hrest (by decide)
    split at hs
    · cases hs
      exact h.emitTo hv _ _
    · cases hs
      exact h.emitTo hv _ _
  · next hrest =>
    split at hs
    · cases hs
      exact h.skip _
    · next hblank =>
      have hv := h.visible hrest (by simpa using hblank)
      split at hs
      · cases hs
        exact wordStep_of h hv _ _
      split at hs
      · cases hs
        exact h.emitTo hv _ _
      · cases hs
        exact h.emit hv _ _

lemma codeFrom_sublist (skip : Nat) (trees : List Tree) : (codeFrom skip trees).Sublist trees := by
  induction trees generalizing skip with
  | nil => cases skip <;> exact List.Sublist.refl _
  | cons t rest ih =>
    cases skip with
    | zero =>
      rw [codeFrom]
      split
      · exact (ih 0).cons_cons _
      · exact (ih _).cons _
    | succ skip => exact (ih skip).cons _

lemma afterVisibility_sublist (trees : List Tree) : (afterVisibility trees).Sublist trees := by
  rw [afterVisibility.eq_def]
  split
  · split
    · split
      · split
        · exact (List.sublist_cons_self _ _).cons _
        · exact List.sublist_cons_self _ _
      · exact List.sublist_cons_self _ _
    · exact List.Sublist.refl _
  · exact List.Sublist.refl _

lemma useItem?_of {kind : String} {start : Nat} {n : SyntaxNode}
    (hkind : kind ≠ "let" ∧ kind ≠ "var" ∧ isDeclaring kind = false) (h : ∀ t ∈ trees, t.Of source ∧ start ≤ t.start)
    (hn : useItem? kind start trees = some n) : ∀ m ∈ n.nodes, Found source m := by
  obtain ⟨t, ht, rfl⟩ := Option.map_eq_some_iff.1 hn
  obtain ⟨hof, hstart⟩ := h t (List.mem_of_find?_eq_some ht)
  have hsemicolon := Tree.start_lt_stop (.inr (List.find?_some ht)) (by decide)
  exact found_import hkind (Nat.lt_of_le_of_lt hstart hsemicolon) hof.stop_le

lemma itemKind?_of {kinds : String × String} (h : itemKind? t rest = some kinds) :
    isDeclarationOnly kinds.1 = true ∧ isPlain kinds.2 = true := by
  rw [itemKind?] at h
  split_ifs at h
  all_goals
    cases h
    decide

lemma declared?_of {start : Nat} {n : SyntaxNode} (hstart : Visible source start)
    (hn : declared? start trees = some n) : ∀ m ∈ n.nodes, Found source m := by
  rw [declared?.eq_def] at hn
  split at hn
  · obtain ⟨kinds, hkinds, hn⟩ := Option.bind_eq_some_iff.1 hn
    obtain ⟨hkind, hname⟩ := itemKind?_of hkinds
    split at hn
    · cases hn
      exact found_bareDeclaration hkind hname hstart _
    · cases hn
  · cases hn

lemma item?_of {n : SyntaxNode} (h : TreesOf source trees) (hn : item? trees = some n) :
    ∀ m ∈ n.nodes, Found source m := by
  rw [item?.eq_def] at hn
  split at hn
  · cases hn
  · next first more =>
    have hvisible := afterVisibility_sublist (first :: more)
    split at hn
    · cases hn
    · next key rest heq =>
      rw [heq] at hvisible
      have hlater : ∀ t ∈ rest, t.Of source ∧ first.start ≤ t.start := by
        intro t ht
        have hmem := hvisible.subset (List.mem_cons_of_mem _ ht)
        refine ⟨h.of t hmem, ?_⟩
        rcases List.mem_cons.1 hmem with rfl | hlater
        · exact Nat.le_refl _
        · exact h.start_le hlater
      split_ifs at hn
      · exact useItem?_of (by decide) hlater hn
      · exact useItem?_of (by decide) hlater hn
      · exact declared?_of h.head.visible hn

lemma itemsFrom_of (skip : Nat) (h : TreesOf source trees) : (itemsFrom skip trees).Of source := by
  induction trees generalizing skip with
  | nil => cases skip <;> exact .nil
  | cons t rest ih =>
    cases skip with
    | zero =>
      rw [itemsFrom]
      split
      · exact ih 0 h.tail
      · next hitem => exact .cons (item?_of h hitem) (ih _ h.tail)
    | succ skip => exact ih skip h.tail

/-- The groups of a list of trees add what is nested in them. -/
lemma foldl_groups_of {fuel : Nat} (hnested : ∀ {items}, TreesOf source items → (treesOutline fuel items).Of source)
    {o : Outline} (ho : o.Of source) (h : ∀ t ∈ trees, t.Of source) :
    (trees.foldl (fun o t =>
      match t with
      | .group _ items _ => o ++ treesOutline fuel items
      | .leaf _ => o) o).Of source := by
  induction trees generalizing o with
  | nil => exact ho
  | cons t rest ih =>
    rw [List.forall_mem_cons] at h
    rw [List.foldl_cons]
    cases h.1 with
    | leaf => exact ih ho h.2
    | group _ _ _ hitems horder => exact ih (ho.append (hnested ⟨hitems, horder⟩)) h.2

lemma treesOutline_of (fuel : Nat) (h : TreesOf source trees) : (treesOutline fuel trees).Of source := by
  induction fuel generalizing trees with
  | zero => exact .nil
  | succ fuel ih =>
    have hcode := h.sublist (codeFrom_sublist 0 trees)
    rw [treesOutline]
    exact foldl_groups_of ih (itemsFrom_of 0 hcode) hcode.of

theorem outline_of (source : Text) : (outline source).Of source := by
  rw [outline]
  split
  · next htrees => exact Outline.Of.sorted (treesOutline_of _ (treesWith?_of step_of htrees))
  · exact .broken

end Rust

lemma ofSource_of (g : Grammar) (source : Text) : (ofSource g source).Of source := by
  cases g with
  | python => exact Python.outline_of source
  | rust => exact Rust.outline_of source
  | typeScript => exact Ecma.outline_of false source
  | tagged => exact Ecma.outline_of true source

lemma found_of_tree? {g : Grammar} {source : Text} {root : SyntaxNode} (h : parser.tree? g source = some root) :
    ∀ n ∈ root.nodes, Found source n := by
  obtain rfl := Option.some.inj h
  have hkind : isPlain (rootKind g) = true := by cases g <;> decide
  rw [SyntaxNode.forall_mem_nodes]
  exact ⟨.of_isPlain hkind, ofSource_of g source⟩

/-- All nodes that the parser of the program makes stand in their sources. -/
theorem parser_isSound : parser.IsSound := fun _ _ _ h n hn => (found_of_tree? h n hn).toStandsIn

/-- The declarations that the parser of the program finds start at visible characters, and so do their exports. -/
theorem parser_showsDeclarations : parser.ShowsDeclarations := by
  intro g source root h n hn hkind
  refine (found_of_tree? h n hn).visible ?_
  rcases hkind with hkind | hkind
  · exact isDeclaring_of_mem hkind
  · rw [hkind]
    decide

end Autofix.Outline
