import Autofix.Outline.Basic
import Autofix.Proofs.Outline.Token
import Autofix.Proofs.Syntax.Parser

/-! Nodes that are made of trees of tokens stand in the source as the trees do. -/
namespace Autofix.Outline
open Text

/-- Is the kind one of imports? -/
def isImport (kind : String) : Bool := Grammar.standard.any fun g => g.importKinds.contains kind

/-- Is the kind one of declarations, or of what may stand around them? -/
def isDeclaring (kind : String) : Bool :=
  kind == "export_statement" || Grammar.standard.any fun g => (g.declarationKinds.map Prod.fst).contains kind

/-- The node stands in the source, and if it declares something, it starts at a visible character. -/
structure Found (source : Text) (n : SyntaxNode) : Prop extends n.StandsIn source where
  visible : isDeclaring n.kind = true → Visible source n.start

/-- All nodes of an outline have been found in the source. -/
def Of (source : Text) (o : Outline) : Prop := ∀ n ∈ o, ∀ m ∈ n.nodes, Found source m

section Kinds
variable {source : Text} {n : SyntaxNode}

lemma isImport_of_mem {g : Grammar} {kind : String} (h : kind ∈ g.importKinds) : isImport kind = true :=
  List.any_eq_true.2 ⟨g, by cases g <;> decide, List.contains_iff_mem.2 h⟩

lemma isDeclaring_of_mem {g : Grammar} {kind : String} (h : kind ∈ g.declarationKinds.map Prod.fst) :
    isDeclaring kind = true :=
  Bool.or_eq_true_iff.2 (.inr (List.any_eq_true.2 ⟨g, by cases g <;> decide, List.contains_iff_mem.2 h⟩))

/-- Nothing is asked of nodes of other kinds. -/
lemma Found.of_kind (himport : isImport n.kind = true → n.start < n.stop ∧ n.stop ≤ source.length)
    (hword : n.kind ≠ "let" ∧ n.kind ≠ "var") (hvisible : isDeclaring n.kind = true → Visible source n.start) :
    Found source n where
  imports _ hkind := himport (isImport_of_mem hkind)
  keyword h := absurd h (not_or.2 hword)
  visible := hvisible

/-- Nothing is asked of nodes of most kinds. -/
def isPlain (kind : String) : Bool := !isImport kind && !isDeclaring kind && kind != "let" && kind != "var"

lemma Found.of_isPlain (h : isPlain n.kind = true) : Found source n := by
  simp only [isPlain, Bool.and_eq_true, Bool.not_eq_true', bne_iff_ne] at h
  obtain ⟨⟨⟨himport, hdeclaring⟩, hlet⟩, hvar⟩ := h
  exact .of_kind (by simp [himport]) ⟨hlet, hvar⟩ (by simp [hdeclaring])

lemma found_nodeOf {kind : String} (h : isPlain kind = true) (field : Option String) (t : Tree) :
    ∀ m ∈ (nodeOf kind field t).nodes, Found source m := by
  rw [SyntaxNode.forall_mem_nodes]
  exact ⟨.of_isPlain h, fun _ hchild => (List.not_mem_nil hchild).elim⟩

end Kinds

section Nodes
variable {source : Text} {o o' : Outline} {n : SyntaxNode} {name t : Tree}

lemma Of.nil : Of source [] := fun _ h => (List.not_mem_nil h).elim

lemma Of.cons (hn : ∀ m ∈ n.nodes, Found source m) (h : Of source o) : Of source (n :: o) :=
  List.forall_mem_cons.2 ⟨hn, h⟩

lemma Of.one (hn : ∀ m ∈ n.nodes, Found source m) : Of source [n] := .cons hn .nil

lemma Of.append (h : Of source o) (h' : Of source o') : Of source (o ++ o') := List.forall_mem_append.2 ⟨h, h'⟩

lemma Of.ite {c : Prop} [Decidable c] (h : Of source o) (h' : Of source o') : Of source (if c then o else o') := by
  split
  · exact h
  · exact h'

lemma Of.sorted (h : Of source o) : Of source (Outline.sorted o) := fun n hn => h n (List.mem_mergeSort.1 hn)

lemma found_leaf {kind : String} (h : isPlain kind = true) (start stop : Nat) :
    ∀ m ∈ ({ kind, start, stop } : SyntaxNode).nodes, Found source m := by
  rw [SyntaxNode.forall_mem_nodes]
  exact ⟨.of_isPlain h, fun _ hchild => (List.not_mem_nil hchild).elim⟩

lemma Of.broken : Of source .broken := .one (found_leaf (by decide) 0 0)

/-- An import that takes up some of the source. -/
lemma found_import {kind : String} {start stop : Nat} (hkind : kind ≠ "let" ∧ kind ≠ "var" ∧ isDeclaring kind = false)
    (hlt : start < stop) (hstop : stop ≤ source.length) :
    ∀ m ∈ ({ kind, start, stop } : SyntaxNode).nodes, Found source m := by
  rw [SyntaxNode.forall_mem_nodes]
  exact ⟨.of_kind (fun _ => ⟨hlt, hstop⟩) ⟨hkind.1, hkind.2.1⟩ (by simp [hkind.2.2]),
    fun _ hchild => (List.not_mem_nil hchild).elim⟩

/-- Kinds of declarations are no kinds of imports and no keywords. -/
def isDeclarationOnly (kind : String) : Bool := !isImport kind && kind != "let" && kind != "var"

lemma Found.of_visible (hkind : isDeclarationOnly n.kind = true) (hvisible : Visible source n.start) : Found source n := by
  simp only [isDeclarationOnly, Bool.and_eq_true, Bool.not_eq_true', bne_iff_ne] at hkind
  exact .of_kind (by simp [hkind.1.1]) ⟨hkind.1.2, hkind.2⟩ fun _ => hvisible

lemma found_declaration {kind nameKind : String} {start : Nat} {body : Option SyntaxNode}
    (hkind : isDeclarationOnly kind = true) (hname : isPlain nameKind = true) (hvisible : Visible source start)
    (hbody : ∀ b ∈ body, ∀ m ∈ b.nodes, Found source m) :
    ∀ m ∈ (declaration kind nameKind start name body).nodes, Found source m := by
  rw [SyntaxNode.forall_mem_nodes, declaration]
  refine ⟨.of_visible hkind hvisible, List.forall_mem_cons.2 ⟨found_nodeOf hname _ _, fun b hb => ?_⟩⟩
  exact hbody b (Option.mem_toList.1 hb)

lemma found_bareDeclaration {kind nameKind : String} {start : Nat} (hkind : isDeclarationOnly kind = true)
    (hname : isPlain nameKind = true) (hvisible : Visible source start) (name : Tree) :
    ∀ m ∈ (declaration kind nameKind start name).nodes, Found source m :=
  found_declaration hkind hname hvisible fun _ hb => (Option.not_mem_none _ hb).elim

lemma found_exportOf {exportStart : Option Nat} (hexport : ∀ p ∈ exportStart, Visible source p)
    (hn : ∀ m ∈ n.nodes, Found source m) : ∀ m ∈ (exportOf exportStart n).nodes, Found source m := by
  cases exportStart with
  | none => exact hn
  | some start =>
    rw [SyntaxNode.forall_mem_nodes, exportOf]
    have hkind : isDeclarationOnly "export_statement" = true := by decide
    refine ⟨.of_visible hkind (hexport start rfl), fun child hchild => ?_⟩
    obtain rfl := List.mem_singleton.1 hchild
    exact hn

/-- At most one declaration, by the name that it may have. -/
lemma Of.declared {exportStart : Option Nat} {kind nameKind : String} {start : Nat}
    (hexport : ∀ p ∈ exportStart, Visible source p) (hkind : isDeclarationOnly kind = true)
    (hname : isPlain nameKind = true) (hvisible : Visible source start) (name : Option Tree) :
    Of source (name.map fun name => exportOf exportStart (declaration kind nameKind start name)).toList := by
  cases name with
  | none => exact .nil
  | some name =>
    exact .one (found_exportOf hexport (found_bareDeclaration hkind hname hvisible name))

lemma found_declarator (name : Tree) (hasValue : Bool) :
    ∀ m ∈ (declarator name hasValue).nodes, Found source m := by
  have hkind : isPlain (if name.word?.isSome then "identifier" else "pattern") = true := by
    split <;> decide
  rw [SyntaxNode.forall_mem_nodes, declarator]
  refine ⟨.of_isPlain (show isPlain "variable_declarator" = true by decide),
    List.forall_mem_cons.2 ⟨found_nodeOf hkind _ _, fun child hchild => ?_⟩⟩
  cases hasValue with
  | false => exact (List.not_mem_nil hchild).elim
  | true =>
    obtain rfl := List.mem_singleton.1 hchild
    exact found_nodeOf (by decide) _ _

/-- A word stands in the source as it is spelled. -/
lemma found_keyword (ht : t.Of source) : Found source { nodeOf (t.word?.getD "") none t with isNamed := false } := by
  cases hword : t.word? with
  | none => exact .of_isPlain (show isPlain "" = true by decide)
  | some word =>
    cases ht with
    | group => cases hword
    | leaf htoken hvisible =>
      rename_i token
      have htext : token.text = word.toList := by
        rw [Tree.word?] at hword
        split at hword
        · rw [← Option.some.inj hword, String.toList_ofList]
        · cases hword
      refine { imports := fun g hkind => ⟨?_, htoken.inside⟩, keyword := fun _ => ⟨htoken.inside, ?_⟩,
               visible := fun _ => hvisible }
      · have hne : word ≠ "" := by
          rintro rfl
          exact absurd (show isImport "" = true from isImport_of_mem hkind) (by decide)
        have hlength : 0 < token.text.length := by
          rw [htext]
          exact List.length_pos_iff.2 (by simpa using hne)
        exact Nat.lt_add_of_pos_right hlength
      · exact htoken.text.trans htext

lemma found_variableStatement {declarators : List SyntaxNode} (ht : t.Of source) (h : Of source declarators) :
    ∀ m ∈ (variableStatement t declarators).nodes, Found source m := by
  have hkind : isPlain (if (t.word?.getD "") == "var" then "variable_declaration" else "lexical_declaration") = true := by
    split <;> decide
  rw [SyntaxNode.forall_mem_nodes, variableStatement]
  refine ⟨.of_isPlain hkind, List.forall_mem_cons.2 ⟨?_, h⟩⟩
  rw [SyntaxNode.forall_mem_nodes]
  exact ⟨found_keyword ht, fun _ hchild => (List.not_mem_nil hchild).elim⟩

lemma found_write {kind field : String} (hkind : isPlain kind = true) (start : Nat) (name : Option Tree) :
    ∀ m ∈ (write kind field start name).nodes, Found source m := by
  rw [SyntaxNode.forall_mem_nodes, write]
  refine ⟨.of_isPlain hkind, fun child hchild => ?_⟩
  obtain ⟨t, _, rfl⟩ := Option.map_eq_some_iff.1 (Option.mem_toList.1 hchild)
  exact found_nodeOf (by decide) _ _

lemma Of.written {kind field : String} (hkind : isPlain kind = true) {α : Type} (operand : Option α) (start : α → Nat)
    (name : α → Option Tree) :
    Of source (operand.map fun o => write kind field (start o) (name o)).toList := by
  cases operand with
  | none => exact .nil
  | some o => exact .one (found_write hkind _ _)

end Nodes
end Autofix.Outline
