import Autofix.Syntax.Node
import Mathlib.Tactic.Common

/-! The nodes of a syntax tree: a node, and then those of the trees below it. -/
namespace Autofix.SyntaxNode

/-- What holds of a node if it holds of its children holds of every node. -/
@[elab_as_elim]
theorem inductionOn {p : SyntaxNode → Prop} (n : SyntaxNode) (h : ∀ n, (∀ child ∈ n.children, p child) → p n) : p n := by
  obtain ⟨kind, isNamed, field, start, stop, children⟩ := n
  exact h _ fun child _ => inductionOn child h

lemma walkAll_eq (above : SyntaxNode) (ns : List SyntaxNode) : walkAll above ns = ns.flatMap (walk (some above)) := by
  induction ns with
  | nil => rfl
  | cons n rest ih => rw [walkAll, ih, List.flatMap_cons]

theorem walk_eq (above : Option SyntaxNode) (n : SyntaxNode) :
    walk above n = (above, n) :: n.children.flatMap (walk (some n)) := by
  obtain ⟨kind, isNamed, field, start, stop, children⟩ := n
  rw [walk, walkAll_eq]

lemma map_snd_walk (above : Option SyntaxNode) (n : SyntaxNode) : (walk above n).map Prod.snd = n.nodes := by
  rw [nodes, walk_eq, walk_eq, List.map_cons, List.map_cons]

theorem nodes_eq (n : SyntaxNode) : n.nodes = n :: n.children.flatMap nodes := by
  rw [nodes, walk_eq, List.map_cons, List.map_flatMap]
  simp only [map_snd_walk]

lemma mem_nodes {m n : SyntaxNode} : m ∈ n.nodes ↔ m = n ∨ ∃ child ∈ n.children, m ∈ child.nodes := by
  rw [nodes_eq, List.mem_cons, List.mem_flatMap]

lemma forall_mem_nodes {p : SyntaxNode → Prop} {n : SyntaxNode} :
    (∀ m ∈ n.nodes, p m) ↔ p n ∧ ∀ child ∈ n.children, ∀ m ∈ child.nodes, p m := by
  rw [nodes_eq, List.forall_mem_cons, List.forall_mem_flatMap]

lemma self_mem_nodes (n : SyntaxNode) : n ∈ n.nodes := mem_nodes.2 (.inl rfl)

/-- With a node its children are among the nodes of a tree. -/
theorem mem_nodes_of_mem_children {root n child : SyntaxNode} (hn : n ∈ root.nodes) (hchild : child ∈ n.children) :
    child ∈ root.nodes := by
  induction root using inductionOn with
  | h root ih =>
    rcases mem_nodes.1 hn with rfl | ⟨c, hc, hn⟩
    · exact mem_nodes.2 (.inr ⟨child, hchild, self_mem_nodes child⟩)
    · exact mem_nodes.2 (.inr ⟨c, hc, ih c hc hn⟩)

/-- Where a node is met, it is one of the tree, and so is the node above it, if it is not the one above the tree. -/
lemma mem_nodes_of_mem_walk {root n : SyntaxNode} {above place : Option SyntaxNode} (h : (place, n) ∈ walk above root) :
    n ∈ root.nodes ∧ ∀ p ∈ place, above = some p ∨ p ∈ root.nodes := by
  refine ⟨map_snd_walk above root ▸ List.mem_map_of_mem h, ?_⟩
  induction root using inductionOn generalizing above with
  | h root ih =>
    intro p hp
    rw [walk_eq, List.mem_cons, List.mem_flatMap] at h
    rcases h with heq | ⟨child, hchild, h⟩
    · exact .inl ((Prod.mk.inj heq).1 ▸ hp)
    · refine .inr (mem_nodes.2 ?_)
      rcases ih child hchild h p hp with habove | hmem
      · exact .inl (Option.some.inj habove).symm
      · exact .inr ⟨child, hchild, hmem⟩

end Autofix.SyntaxNode
