import Autofix.Outline.Ecma.Reader
import Autofix.Proofs.Outline.Basic
import Autofix.Proofs.Outline.Ecma.Token

/-! What the reader finds in an ECMAScript source stands where it says: each part of the reader is given trees of
the source, finds something in them and leaves some of them. -/
namespace Autofix.Outline.Ecma
open Text

section Passing
variable {source : Text} {t : Tree} {trees rest items : List Tree}

lemma dropIf_sublist (test : Tree → Bool) (trees : List Tree) : (dropIf test trees).Sublist trees := by
  rw [dropIf]
  split
  · exact List.drop_sublist _ _
  · exact List.Sublist.refl _

lemma afterTypeFrom_sublist (s : TypeState) (trees : List Tree) : (afterTypeFrom s trees).Sublist trees := by
  induction trees generalizing s with
  | nil => exact List.Sublist.refl _
  | cons t rest ih =>
    rw [afterTypeFrom]
    split
    · exact (ih _).cons _
    · exact List.Sublist.refl _

lemma afterType_sublist (trees : List Tree) : (afterType trees).Sublist trees := afterTypeFrom_sublist _ _

lemma afterOptionalType_sublist (trees : List Tree) : (afterOptionalType trees).Sublist trees := by
  cases trees with
  | nil => exact List.Sublist.refl _
  | cons t rest =>
    rw [afterOptionalType]
    split
    · exact (afterType_sublist rest).cons _
    · exact List.Sublist.refl _

lemma afterAngles_sublist {depth : Nat} (h : afterAngles depth trees = some rest) : rest.Sublist trees := by
  induction trees generalizing depth with
  | nil => cases h
  | cons t more ih =>
    rw [afterAngles] at h
    split_ifs at h
    · exact (ih h).cons _
    · cases h
      exact List.sublist_cons_self _ _
    · exact (ih h).cons _
    · exact (ih h).cons _

lemma afterTypeParameters_sublist (trees : List Tree) : (afterTypeParameters trees).Sublist trees := by
  cases trees with
  | nil => exact List.Sublist.refl _
  | cons t rest =>
    simp only [afterTypeParameters]
    split
    · cases hangles : afterAngles 1 rest with
      | none => exact List.sublist_cons_self _ _
      | some more => exact (afterAngles_sublist hangles).cons _
    · exact List.Sublist.refl _

lemma afterTypeArguments?_sublist (h : afterTypeArguments? trees = some rest) : rest.Sublist trees := by
  obtain ⟨more, hmore, hrest⟩ := Option.bind_eq_some_iff.1 h
  dsimp only at hrest
  split at hrest
  · cases hrest
    exact afterAngles_sublist hmore
  · cases hrest

lemma fromMemberName_sublist (endsAtLine : Bool) (words : List String) (trees : List Tree) :
    (fromMemberName endsAtLine words trees).Sublist trees := by
  induction trees with
  | nil => exact List.Sublist.refl _
  | cons t rest ih =>
    rw [fromMemberName]
    split
    · exact ih.cons _
    · exact List.Sublist.refl _

lemma exportList_sublist (fuel : Nat) (trees : List Tree) : (exportList fuel trees).Sublist trees := by
  induction fuel generalizing trees with
  | zero => simp only [exportList, List.Sublist.refl]
  | succ fuel ih =>
    cases trees with
    | nil => simp only [exportList, List.Sublist.refl]
    | cons t rest =>
      rw [exportList]
      split_ifs
      · exact List.sublist_cons_self _ _
      · exact (dropIf_sublist _ _).cons _
      · exact List.sublist_cons_self _ _
      · exact (ih rest).cons _

lemma classBody?_of {depth : Nat} (h : TreesOf source trees) (hbody : classBody? depth trees = some (items, rest)) :
    TreesOf source items ∧ TreesOf source rest := by
  induction trees generalizing depth with
  | nil => cases hbody
  | cons t more ih =>
    rw [Ecma.classBody?.eq_def] at hbody
    dsimp only at hbody
    split_ifs at hbody
    · exact ih h.tail hbody
    · exact ih h.tail hbody
    · split at hbody
      · next hinside =>
        cases hbody
        exact ⟨h.head.inside? hinside, h.tail⟩
      · exact ih h.tail hbody

end Passing

/-- What has been found and the trees that are left stand in the source. -/
structure Read.Of (source : Text) (r : Read) : Prop where
  found : r.1.Of source
  left : TreesOf source r.2

section Steps
variable {source : Text} {t : Tree} {trees rest items : List Tree} {o : Outline} {r : Read} {fuel : Nat}

lemma Read.Of.after (h : r.Of source) (ho : o.Of source) : (r.after o).Of source := ⟨ho.append h.found, h.left⟩

lemma Read.Of.ite_of {c : Prop} [Decidable c] {r' : Read} (h : c → r.Of source) (h' : r'.Of source) :
    Read.Of source (if c then r else r') := by
  split
  · next hc => exact h hc
  · exact h'

lemma Read.Of.ite {c : Prop} [Decidable c] {r' : Read} (h : r.Of source) (h' : r'.Of source) :
    Read.Of source (if c then r else r') := .ite_of (fun _ => h) h'

lemma Read.Of.nothing (h : TreesOf source trees) : Read.Of source ([], trees) := ⟨.nil, h⟩

/-- Each part of the reader, as far as it may go. -/
structure Sound (source : Text) (fuel : Nat) : Prop where
  expression : ∀ {trees}, TreesOf source trees → ∀ ends operand conditions,
    Read.Of source (expression fuel ends operand conditions trees)
  wordPart : ∀ {t rest}, TreesOf source (t :: rest) → ∀ ends operand conditions,
    Read.Of source (wordPart fuel ends operand conditions t rest)
  symbolPart : ∀ {t rest}, TreesOf source (t :: rest) → ∀ ends operand conditions,
    Read.Of source (symbolPart fuel ends operand conditions t rest)
  codeGroups : ∀ {trees}, TreesOf source trees → (codeGroups fuel trees).Of source
  pattern : ∀ {trees}, TreesOf source trees → (pattern fuel trees).Of source
  parameters : ∀ {trees}, TreesOf source trees → (parameters fuel trees).Of source
  function : ∀ {trees}, TreesOf source trees →
    (function fuel trees).outline.Of source ∧ TreesOf source (function fuel trees).rest
  classFrom : ∀ {trees}, TreesOf source trees →
    (classFrom fuel trees).1.Of source ∧ TreesOf source (classFrom fuel trees).2.2
  method : ∀ {trees start}, TreesOf source trees → Visible source start → ∀ name,
    Read.Of source (method fuel start name trees)
  members : ∀ {trees}, TreesOf source trees → (members fuel trees).Of source
  classMembers : ∀ {trees}, TreesOf source trees → (classMembers fuel trees).Of source
  decorator : ∀ {trees}, TreesOf source trees → Read.Of source (decorator fuel trees)
  declarators : ∀ {trees}, TreesOf source trees → ∀ ends,
    Outline.Of source (declarators fuel ends trees).1 ∧ Read.Of source (declarators fuel ends trees).2
  variableFrom : ∀ {key trees}, key.Of source → TreesOf source trees → ∀ ends,
    Read.Of source (variableFrom fuel ends key trees)
  loopParts : ∀ {trees}, TreesOf source trees → (loopParts fuel trees).Of source
  loopHead : ∀ {trees}, TreesOf source trees → (loopHead fuel trees).Of source
  importFrom : ∀ {start trees}, TreesOf source trees → (∀ t ∈ trees, start < t.start) →
    Read.Of source (importFrom fuel start trees)
  statement : ∀ {trees}, TreesOf source trees → ∀ exportStart decorators, (∀ p ∈ exportStart, Visible source p) →
    (∀ p ∈ decorators, Visible source p) → Read.Of source (statement fuel exportStart decorators trees)
  exportFrom : ∀ {trees start}, TreesOf source trees → Visible source start →
    Read.Of source (exportFrom fuel start trees)
  statements : ∀ {trees}, TreesOf source trees → (statements fuel trees).Of source

lemma sound_zero (source : Text) : Sound source 0 where
  expression h _ _ _ := by
    rw [Ecma.expression.eq_def]
    exact .nothing h
  wordPart h _ _ _ := by
    rw [Ecma.wordPart.eq_def]
    exact .nothing h
  symbolPart h _ _ _ := by
    rw [Ecma.symbolPart.eq_def]
    exact .nothing h
  codeGroups _ := by
    rw [Ecma.codeGroups.eq_def]
    exact .nil
  pattern _ := by
    rw [Ecma.pattern.eq_def]
    exact .nil
  parameters _ := by
    rw [Ecma.parameters.eq_def]
    exact .nil
  function h := by
    rw [Ecma.function.eq_def]
    exact ⟨.nil, h⟩
  classFrom h := by
    rw [Ecma.classFrom.eq_def]
    exact ⟨.nil, h⟩
  method h _ _ := by
    rw [Ecma.method.eq_def]
    exact .nothing h
  members _ := by
    rw [Ecma.members.eq_def]
    exact .nil
  classMembers _ := by
    rw [Ecma.classMembers.eq_def]
    exact .nil
  decorator h := by
    rw [Ecma.decorator.eq_def]
    exact .nothing h
  declarators h _ := by
    rw [Ecma.declarators.eq_def]
    exact ⟨.nil, .nothing h⟩
  variableFrom _ h _ := by
    rw [Ecma.variableFrom.eq_def]
    exact .nothing h
  loopParts _ := by
    rw [Ecma.loopParts.eq_def]
    exact .nil
  loopHead _ := by
    rw [Ecma.loopHead.eq_def]
    exact .nil
  importFrom h _ := by
    rw [Ecma.importFrom.eq_def]
    exact .nothing h
  statement h _ _ _ _ := by
    rw [Ecma.statement.eq_def]
    exact .nothing h
  exportFrom h _ := by
    rw [Ecma.exportFrom.eq_def]
    exact .nothing h
  statements _ := by
    rw [Ecma.statements.eq_def]
    exact .nil

section Expressions

lemma Sound.expression_succ (h : Sound source fuel) (htrees : TreesOf source trees) (ends : Ends)
    (operand : Option Operand) (conditions : Nat) :
    Read.Of source (Ecma.expression (fuel + 1) ends operand conditions trees) := by
  rw [Ecma.expression.eq_def]
  cases trees with
  | nil => exact .nothing htrees
  | cons t rest =>
    have hrest := htrees.tail
    dsimp only
    apply Read.Of.ite
    · exact .nothing htrees
    cases htrees.head with
    | leaf =>
      dsimp only
      split
      · exact h.wordPart htrees _ _ _
      · exact h.symbolPart htrees _ _ _
      · exact h.expression hrest _ _ _
    | group _ _ _ hitems horder =>
      have hitems : TreesOf source _ := ⟨hitems, horder⟩
      have hinside := (h.expression hitems {} none 0).found
      apply Read.Of.ite
      · apply Read.Of.ite
        · exact (h.expression hrest _ _ _).after (h.parameters hitems)
        apply Read.Of.ite
        · exact (h.expression (hrest.sublist (afterOptionalType_sublist _)) _ _ _).after (h.parameters hitems)
        exact (h.expression hrest _ _ _).after hinside
      apply Read.Of.ite
      · exact (h.expression hrest _ _ _).after (h.pattern hitems)
      apply Read.Of.ite
      · exact (h.expression hrest _ _ _).after hinside
      apply Read.Of.ite
      · exact (h.expression hrest _ _ _).after (h.members hitems)
      exact (h.expression hrest _ _ _).after (h.codeGroups hitems)

lemma Sound.wordPart_succ (h : Sound source fuel) (htrees : TreesOf source (t :: rest)) (ends : Ends)
    (operand : Option Operand) (conditions : Nat) :
    Read.Of source (Ecma.wordPart (fuel + 1) ends operand conditions t rest) := by
  have hrest := htrees.tail
  have hfunction := h.function hrest
  have hasync := h.function (hrest.sublist (List.drop_sublist 1 _))
  have hclass := h.classFrom hrest
  rw [Ecma.wordPart.eq_def]
  dsimp only
  apply Read.Of.ite
  · exact (h.expression hfunction.2 _ _ _).after hfunction.1
  apply Read.Of.ite
  · exact (h.expression hasync.2 _ _ _).after hasync.1
  apply Read.Of.ite
  · exact h.expression hrest _ _ _
  apply Read.Of.ite
  · exact (h.expression hclass.2 _ _ _).after hclass.1
  iterate 3
    apply Read.Of.ite
    · exact h.expression hrest _ _ _
  apply Read.Of.ite
  · exact h.expression (hrest.sublist (afterType_sublist _)) _ _ _
  apply Read.Of.ite
  · exact h.expression hrest _ _ _
  exact h.expression hrest _ _ _

lemma Sound.symbolPart_succ (h : Sound source fuel) (htrees : TreesOf source (t :: rest)) (ends : Ends)
    (operand : Option Operand) (conditions : Nat) :
    Read.Of source (Ecma.symbolPart (fuel + 1) ends operand conditions t rest) := by
  have hrest := htrees.tail
  have hwrote : ∀ {kind : String}, isPlain kind = true → ∀ field, Outline.Of source
      (operand.map fun o => write kind field o.start o.name).toList := fun hkind _ => .written hkind _ _ _
  rw [Ecma.symbolPart.eq_def]
  dsimp only
  apply Read.Of.ite
  · exact h.expression (hrest.sublist (dropIf_sublist _ _)) _ _ _
  iterate 2
    apply Read.Of.ite
    · exact (h.expression hrest _ _ _).after (hwrote (by decide) _)
  apply Read.Of.ite
  · apply Read.Of.ite
    · exact (h.expression hrest _ _ _).after (hwrote (by decide) _)
    exact (h.expression hrest _ _ _).after (.one (found_write (by decide) _ _))
  apply Read.Of.ite
  · split
    · split
      · next hinside => exact (h.expression hrest.tail _ _ _).after (h.statements (hrest.head.inside? hinside))
      · exact h.expression hrest _ _ _
    · exact .nothing .nil
  apply Read.Of.ite
  · split
    · next harguments =>
      apply Read.Of.ite
      · exact h.expression (hrest.sublist (afterTypeArguments?_sublist harguments)) _ _ _
      exact h.expression hrest _ _ _
    · next harguments => exact h.expression (hrest.sublist (afterTypeArguments?_sublist harguments)) _ _ _
    · exact h.expression hrest _ _ _
  iterate 3
    apply Read.Of.ite
    · exact h.expression hrest _ _ _
  exact h.expression hrest _ _ _

lemma Sound.codeGroups_succ (h : Sound source fuel) (htrees : TreesOf source trees) :
    (Ecma.codeGroups (fuel + 1) trees).Of source := by
  rw [Ecma.codeGroups.eq_def]
  cases trees with
  | nil => exact .nil
  | cons t rest =>
    dsimp only
    refine Outline.Of.append ?_ (h.codeGroups htrees.tail)
    cases htrees.head with
    | leaf => exact .nil
    | group _ _ _ hitems horder =>
      exact .ite (h.codeGroups ⟨hitems, horder⟩) (h.expression ⟨hitems, horder⟩ _ _ _).found

lemma Sound.pattern_succ (h : Sound source fuel) (htrees : TreesOf source trees) :
    (Ecma.pattern (fuel + 1) trees).Of source := by
  rw [Ecma.pattern.eq_def]
  cases trees with
  | nil => exact .nil
  | cons t rest =>
    have hrest := htrees.tail
    have hvalue := h.expression hrest { comma := true } none 0
    dsimp only
    apply Outline.Of.ite
    · exact hvalue.found.append (h.pattern hvalue.left)
    cases htrees.head with
    | leaf => exact h.pattern hrest
    | group _ _ _ hitems horder => exact (h.pattern ⟨hitems, horder⟩).append (h.pattern hrest)

lemma Sound.parameters_succ (h : Sound source fuel) (htrees : TreesOf source trees) :
    (Ecma.parameters (fuel + 1) trees).Of source := by
  rw [Ecma.parameters.eq_def]
  cases trees with
  | nil => exact .nil
  | cons t rest =>
    have hrest := htrees.tail
    have hvalue := h.expression hrest { comma := true } none 0
    dsimp only
    apply Outline.Of.ite
    · exact h.parameters (hrest.sublist (afterType_sublist _))
    apply Outline.Of.ite
    · exact hvalue.found.append (h.parameters hvalue.left)
    cases htrees.head with
    | leaf => exact h.parameters hrest
    | group _ _ _ hitems horder =>
      refine Outline.Of.append ?_ (h.parameters hrest)
      exact .ite (h.expression ⟨hitems, horder⟩ _ _ _).found (h.pattern ⟨hitems, horder⟩)

end Expressions

section Members

/-- The parameters in the brackets that come first, if there are any. -/
lemma Sound.headParameters (h : Sound source fuel) (htrees : TreesOf source trees) :
    Outline.Of source (match trees.head?.bind (Tree.inside? '(') with
      | some items => Ecma.parameters fuel items
      | none => {}) := by
  split
  · next hitems => exact h.parameters (htrees.headInside hitems)
  · exact .nil

/-- The expression in the brackets of a computed name. -/
lemma Sound.computed (h : Sound source fuel) (ht : t.Of source) :
    Outline.Of source (match t.inside? '[' with
      | some items => (Ecma.expression fuel {} none 0 items).1
      | none => {}) := by
  split
  · next hitems => exact (h.expression (ht.inside? hitems) _ _ _).found
  · exact .nil

lemma Sound.function_succ (h : Sound source fuel) (htrees : TreesOf source trees) :
    (Ecma.function (fuel + 1) trees).outline.Of source ∧ TreesOf source (Ecma.function (fuel + 1) trees).rest := by
  have hhead : TreesOf source
      (afterTypeParameters (dropIf (fun t => t.word?.isSome) (dropIf (Tree.isSymbol "*") trees))) :=
    htrees.sublist (((afterTypeParameters_sublist _).trans (dropIf_sublist _ _)).trans (dropIf_sublist _ _))
  have hbody := hhead.sublist ((afterOptionalType_sublist _).trans (dropIf_sublist (Tree.isGroup '(') _))
  have hparams := h.headParameters hhead
  rw [Ecma.function.eq_def]
  dsimp only
  split
  · next hitems => exact ⟨hparams.append (h.statements (hbody.headInside hitems)), hbody.sublist (List.drop_sublist _ _)⟩
  · exact ⟨hparams, hbody⟩

lemma Sound.classFrom_succ (h : Sound source fuel) (htrees : TreesOf source trees) :
    (Ecma.classFrom (fuel + 1) trees).1.Of source ∧ TreesOf source (Ecma.classFrom (fuel + 1) trees).2.2 := by
  rw [Ecma.classFrom.eq_def]
  dsimp only
  split
  · next hbody =>
    have hafter : TreesOf source (if (trees.head?.filter fun t =>
        t.word?.isSome && !t.isWordOf ["extends", "implements"]).isSome then trees.drop 1 else trees) := by
      split
      · exact htrees.sublist (List.drop_sublist _ _)
      · exact htrees
    obtain ⟨hitems, hrest⟩ := classBody?_of hafter hbody
    exact ⟨h.classMembers hitems, hrest⟩
  · exact ⟨.nil, .nil⟩

lemma Sound.method_succ (h : Sound source fuel) {start : Nat} (htrees : TreesOf source trees)
    (hstart : Visible source start) (name : Tree) : Read.Of source (Ecma.method (fuel + 1) start name trees) := by
  have hbody := htrees.sublist ((afterOptionalType_sublist _).trans (List.drop_sublist 1 _))
  have hparams := h.headParameters htrees
  rw [Ecma.method.eq_def]
  dsimp only
  split
  · next hitems =>
    have hdeclared : ∀ m ∈ (declaration "method_definition" "property_identifier" start name).nodes, Found source m :=
      found_bareDeclaration (by decide) (by decide) hstart name
    exact ⟨((Outline.Of.ite (.one hdeclared) .nil).append hparams).append (h.statements (hbody.headInside hitems)),
      hbody.sublist (List.drop_sublist _ _)⟩
  · exact ⟨hparams, hbody⟩

lemma Sound.members_succ (h : Sound source fuel) (htrees : TreesOf source trees) :
    (Ecma.members (fuel + 1) trees).Of source := by
  rw [Ecma.members.eq_def]
  cases trees with
  | nil => exact .nil
  | cons t rest =>
    have hrest := htrees.tail
    have hvalue := h.expression hrest { comma := true } none 0
    have hmember := htrees.sublist (fromMemberName_sublist false memberWords (t :: rest))
    dsimp only
    apply Outline.Of.ite
    · exact h.members hrest
    apply Outline.Of.ite
    · exact hvalue.found.append (h.members hvalue.left)
    split
    · exact .nil
    · next name after heq =>
      rw [heq] at hmember
      have hcomputed := h.computed hmember.head
      have hafter := hmember.tail.sublist (dropIf_sublist (fun n => n.isSymbol "?" || n.isSymbol "!") _)
      have hmethod := h.method (hafter.sublist (afterTypeParameters_sublist _)) htrees.head.visible name
      have hfield := h.expression (hafter.sublist (List.drop_sublist 1 _)) { comma := true } none 0
      apply Outline.Of.ite
      · exact (hcomputed.append hmethod.found).append (h.members hmethod.left)
      apply Outline.Of.ite
      · exact (hcomputed.append hfield.found).append (h.members hfield.left)
      exact hcomputed.append (h.members hafter)

lemma Sound.classMembers_succ (h : Sound source fuel) (htrees : TreesOf source trees) :
    (Ecma.classMembers (fuel + 1) trees).Of source := by
  rw [Ecma.classMembers.eq_def]
  cases trees with
  | nil => exact .nil
  | cons t rest =>
    have hrest := htrees.tail
    have hdecorator := h.decorator hrest
    have hmember := htrees.sublist (fromMemberName_sublist true classWords (t :: rest))
    dsimp only
    apply Outline.Of.ite
    · exact h.classMembers hrest
    apply Outline.Of.ite
    · exact hdecorator.found.append (h.classMembers hdecorator.left)
    apply Outline.Of.ite
    · split
      · next hitems =>
        exact (h.statements (hrest.headInside hitems)).append (h.classMembers (hrest.sublist (List.drop_sublist _ _)))
      · exact .nil
    split
    · exact .nil
    · next name after heq =>
      rw [heq] at hmember
      have hcomputed := h.computed hmember.head
      have hafter := hmember.tail.sublist (dropIf_sublist (fun n => n.isSymbol "?" || n.isSymbol "!") _)
      have hmethod := h.method (hafter.sublist (afterTypeParameters_sublist _)) htrees.head.visible name
      have htyped := hafter.sublist (afterOptionalType_sublist _)
      have hfield := h.expression (htyped.sublist (List.drop_sublist 1 _)) { line := true } none 0
      apply Outline.Of.ite
      · exact (hcomputed.append hmethod.found).append (h.classMembers hmethod.left)
      apply Outline.Of.ite
      · exact (hcomputed.append hfield.found).append (h.classMembers hfield.left)
      exact hcomputed.append (h.classMembers htyped)

lemma Sound.decorator_succ (h : Sound source fuel) (htrees : TreesOf source trees) :
    Read.Of source (Ecma.decorator (fuel + 1) trees) := by
  rw [Ecma.decorator.eq_def]
  cases trees with
  | nil => exact .nothing .nil
  | cons t rest =>
    have hrest := htrees.tail
    dsimp only
    split
    · next hitems => exact ⟨(h.expression (htrees.head.inside? hitems) _ _ _).found, hrest⟩
    · apply Read.Of.ite
      · exact h.decorator (hrest.sublist (dropIf_sublist _ _))
      exact .nothing hrest

end Members

section Statements

/-- The default values in the pattern of a variable. -/
lemma Sound.declared (h : Sound source fuel) (t : Tree) :
    t.Of source → Outline.Of source (match t with
      | .group _ items _ => Ecma.pattern fuel items
      | .leaf _ => if t.word?.isSome then {} else .broken) := by
  intro ht
  cases ht with
  | leaf => exact .ite .nil .broken
  | group _ _ _ hitems horder => exact h.pattern ⟨hitems, horder⟩

lemma Sound.declarators_succ (h : Sound source fuel) (htrees : TreesOf source trees) (ends : Ends) :
    Outline.Of source (Ecma.declarators (fuel + 1) ends trees).1 ∧
      Read.Of source (Ecma.declarators (fuel + 1) ends trees).2 := by
  rw [Ecma.declarators.eq_def]
  cases trees with
  | nil => exact ⟨.nil, .broken, .nil⟩
  | cons t rest =>
    have hrest := htrees.tail.sublist ((afterOptionalType_sublist _).trans
      (dropIf_sublist (fun n => n.isSymbol "!" && !n.fresh) _))
    have hfound := h.declared t htrees.head
    dsimp only
    generalize afterOptionalType (dropIf (fun n => n.isSymbol "!" && !n.fresh) rest) = more at hrest ⊢
    have hvalue : Read.Of source (if headIs (Tree.isSymbol "=") more then
        Ecma.expression fuel { ends with comma := true } none 0 (more.drop 1) else ({}, more)) :=
      .ite (h.expression (hrest.sublist (List.drop_sublist _ _)) _ _ _) (.nothing hrest)
    generalize (if headIs (Tree.isSymbol "=") more then
      Ecma.expression fuel { ends with comma := true } none 0 (more.drop 1) else ({}, more)) = value at hvalue ⊢
    have hnext := h.declarators (hvalue.left.sublist (List.drop_sublist 1 _)) ends
    have hone : ∀ m ∈ (declarator t (headIs (Tree.isSymbol "=") more)).nodes, Found source m := found_declarator _ _
    split
    · exact ⟨.cons hone hnext.1, (hfound.append hvalue.found).append hnext.2.found, hnext.2.left⟩
    · exact ⟨.one hone, hfound.append hvalue.found, hvalue.left⟩

lemma Sound.variableFrom_succ (h : Sound source fuel) {key : Tree} (hkey : key.Of source)
    (htrees : TreesOf source trees) (ends : Ends) : Read.Of source (Ecma.variableFrom (fuel + 1) ends key trees) := by
  have hdeclarators := h.declarators htrees ends
  rw [Ecma.variableFrom.eq_def]
  exact ⟨.cons (found_variableStatement hkey hdeclarators.1) hdeclarators.2.found, hdeclarators.2.left⟩

lemma Sound.loopParts_succ (h : Sound source fuel) (htrees : TreesOf source trees) :
    (Ecma.loopParts (fuel + 1) trees).Of source := by
  rw [Ecma.loopParts.eq_def]
  cases trees with
  | nil => exact .nil
  | cons t rest =>
    have hpart := h.expression htrees {} none 0
    exact .ite (h.loopParts htrees.tail) (hpart.found.append (h.loopParts hpart.left))

lemma Sound.loopHead_succ (h : Sound source fuel) (htrees : TreesOf source trees) :
    (Ecma.loopHead (fuel + 1) trees).Of source := by
  rw [Ecma.loopHead.eq_def]
  cases trees with
  | nil => exact .nil
  | cons t rest =>
    have hrest := htrees.tail
    have hvariable := h.variableFrom htrees.head hrest {}
    have hdrop : ∀ n, (Ecma.loopParts fuel (rest.drop n)).Of source := fun n =>
      h.loopParts (hrest.sublist (List.drop_sublist n _))
    dsimp only
    apply Outline.Of.ite
    · exact .ite (hdrop 2) (hvariable.found.append (h.loopParts hvariable.left))
    apply Outline.Of.ite
    · exact hdrop 1
    exact h.loopParts htrees

/-- An import from its keyword to where it ends, or to the semicolon that follows. -/
lemma import_of {start stop : Nat} (hlt : start < stop) (hstop : stop ≤ source.length) (trees : List Tree) :
    TreesOf source trees → (∀ t ∈ trees, start < t.start) → Read.Of source (match trees with
      | semicolon :: more =>
          if semicolon.isSymbol ";" then ([importNode start semicolon.stop], more)
          else ([importNode start stop], trees)
      | [] => ([importNode start stop], [])) := by
  have hone : ∀ stop, start < stop → stop ≤ source.length → Outline.Of source [importNode start stop] :=
    fun stop hlt hstop => .one (found_import (by decide) hlt hstop)
  intro htrees hstart
  cases trees with
  | nil => exact ⟨hone stop hlt hstop, .nil⟩
  | cons semicolon more =>
    have hof := htrees.head
    have hsemicolon := (hstart semicolon List.mem_cons_self).trans_le hof.start_le_stop
    exact .ite ⟨hone _ hsemicolon hof.stop_le, htrees.tail⟩ ⟨hone stop hlt hstop, htrees⟩

lemma Sound.importFrom_succ (h : Sound source fuel) {start : Nat} (htrees : TreesOf source trees)
    (hstart : ∀ t ∈ trees, start < t.start) : Read.Of source (Ecma.importFrom (fuel + 1) start trees) := by
  rw [Ecma.importFrom.eq_def]
  cases trees with
  | nil => exact ⟨.broken, .nil⟩
  | cons t rest =>
    have hrest := htrees.tail
    have hlater : ∀ u ∈ rest, start < u.start := fun u hu => hstart u (List.mem_cons_of_mem _ hu)
    have hend : ∀ {u : Tree} {more : List Tree}, u ∈ t :: rest → more.Sublist rest → Read.Of source _ :=
      fun {u more} hu hsub => import_of ((hstart u hu).trans_le (htrees.of u hu).start_le_stop) (htrees.of u hu).stop_le
        more (hrest.sublist hsub) fun v hv => hlater v (hsub.subset hv)
    have hline := h.expression hrest { line := true } none 0
    dsimp only
    apply Read.Of.ite
    · split
      · apply Read.Of.ite
        · exact hend (by simp) ((List.sublist_cons_self _ _).trans (List.sublist_cons_self _ _))
        exact hend List.mem_cons_self (List.Sublist.refl _)
      · exact hend List.mem_cons_self (List.Sublist.refl _)
    apply Read.Of.ite
    · split
      · apply Read.Of.ite
        · exact hend (by simp) ((List.sublist_cons_self _ _).trans (List.sublist_cons_self _ _))
        exact hline
      · exact hline
    apply Read.Of.ite
    · exact ⟨.broken, hrest⟩
    exact h.importFrom hrest hlater

/-- The members of an enumeration in the braces that come first. -/
lemma Sound.headMembers (h : Sound source fuel) (htrees : TreesOf source trees) :
    (Ecma.members fuel ((trees.head?.bind (Tree.inside? '\x7b')).getD [])).Of source := by
  cases hitems : trees.head?.bind (Tree.inside? '\x7b') with
  | none => exact h.members .nil
  | some items => exact h.members (htrees.headInside hitems)

/-- One statement. The cases are those of the reader, in its order: what stands before statements, imports and exports,
what is declared, variables and the heads of loops, and last labels, jumps and expressions. -/
lemma Sound.statement_succ (h : Sound source fuel) (htrees : TreesOf source trees) (exportStart decorators : Option Nat)
    (hexport : ∀ p ∈ exportStart, Visible source p) (hdecorators : ∀ p ∈ decorators, Visible source p) :
    Read.Of source (Ecma.statement (fuel + 1) exportStart decorators trees) := by
  rw [Ecma.statement.eq_def]
  cases trees with
  | nil => exact .nothing .nil
  | cons t rest =>
    have hrest := htrees.tail
    have hdrop : ∀ n, TreesOf source (rest.drop n) := fun n => hrest.sublist (List.drop_sublist n _)
    have hfirst := htrees.head.visible
    have hdecorated : Visible source (decorators.getD t.start) := by
      cases decorators with
      | none => exact hfirst
      | some p => exact hdecorators p rfl
    have hdeclared : ∀ {kind nameKind : String} {start : Nat}, isDeclarationOnly kind = true → isPlain nameKind = true →
        Visible source start → ∀ name, Outline.Of source _ := fun hkind hname hstart name =>
      Outline.Of.declared hexport hkind hname hstart name
    have hdecorator := h.decorator hrest
    have hfunction := h.function hrest
    have hasync := h.function (hdrop 1)
    have hclass := h.classFrom hrest
    have habstract := h.classFrom (hdrop 1)
    have hcase := h.expression hrest { colon := true } none 0
    dsimp only
    apply Read.Of.ite
    · exact .nothing hrest
    apply Read.Of.ite
    · refine (h.statement hdecorator.left _ _ hexport fun p hp => ?_).after hdecorator.found
      rcases Option.or_eq_some_iff.1 hp with hp | ⟨_, hp⟩
      · exact hdecorators p hp
      · exact Option.some.inj hp ▸ hfirst
    split
    · next hitems => exact ⟨h.statements (htrees.head.inside? hitems), hrest⟩
    apply Read.Of.ite_of
    · intro himport
      have hkeyword := Tree.start_lt_stop (.inl (Bool.and_eq_true_iff.1 himport).1) (by decide)
      exact h.importFrom hrest fun u hu => hkeyword.trans_le (htrees.stop_le_start hu)
    apply Read.Of.ite
    · exact h.exportFrom hrest hdecorated
    apply Read.Of.ite
    · exact h.statement hrest none none visible_of_mem_none visible_of_mem_none
    apply Read.Of.ite
    · exact ⟨habstract.1, habstract.2⟩
    apply Read.Of.ite
    · exact ⟨(hdeclared (by decide) (by decide) hfirst _).append hfunction.1, hfunction.2⟩
    apply Read.Of.ite
    · exact ⟨(hdeclared (by decide) (by decide) hfirst _).append hasync.1, hasync.2⟩
    apply Read.Of.ite
    · exact ⟨(hdeclared (by decide) (by decide) hdecorated _).append hclass.1, hclass.2⟩
    apply Read.Of.ite
    · refine ⟨hdeclared (by decide) (by decide) hfirst _, ?_⟩
      dsimp only
      split
      · next hbody => exact (classBody?_of (hdrop 1) hbody).2
      · exact .nil
    apply Read.Of.ite
    · refine .nothing ((hdrop 1).sublist ?_)
      exact ((afterType_sublist _).trans (List.drop_sublist _ _)).trans (afterTypeParameters_sublist _)
    apply Read.Of.ite
    · exact ⟨h.headMembers (hdrop 1), hdrop 2⟩
    apply Read.Of.ite
    · exact ⟨h.headMembers (hdrop 2), hdrop 3⟩
    apply Read.Of.ite
    · exact .nothing (hrest.sublist (List.dropWhile_sublist _))
    apply Read.Of.ite
    · exact .nothing hrest
    apply Read.Of.ite
    · exact h.variableFrom htrees.head hrest _
    apply Read.Of.ite
    · have hloop := hrest.sublist (dropIf_sublist (Tree.isWord "await") _)
      split
      · next hitems => exact ⟨h.loopHead (hloop.headInside hitems), hloop.sublist (List.drop_sublist _ _)⟩
      · exact ⟨.broken, hloop⟩
    apply Read.Of.ite
    · split
      · next hitems =>
        have hitems := hrest.headInside hitems
        exact ⟨.ite (h.pattern hitems) (h.expression hitems _ _ _).found, hdrop 1⟩
      · exact .nothing hrest
    apply Read.Of.ite
    · exact .nothing hrest
    apply Read.Of.ite
    · exact ⟨hcase.found, hcase.left.sublist (dropIf_sublist _ _)⟩
    apply Read.Of.ite
    · refine .nothing ?_
      split
      · exact hdrop 1
      · exact hrest
    apply Read.Of.ite
    · exact .nothing hrest
    apply Read.Of.ite
    · exact .nothing (hdrop 1)
    exact h.expression htrees _ _ _

lemma Sound.exportFrom_succ (h : Sound source fuel) {start : Nat} (htrees : TreesOf source trees)
    (hstart : Visible source start) : Read.Of source (Ecma.exportFrom (fuel + 1) start trees) := by
  rw [Ecma.exportFrom.eq_def]
  cases trees with
  | nil => exact ⟨.broken, .nil⟩
  | cons t rest =>
    have hrest := htrees.tail
    have hexport : ∀ p ∈ some start, Visible source p := fun p hp => Option.some.inj hp ▸ hstart
    dsimp only
    apply Read.Of.ite
    · exact .ite (h.statement hrest _ none hexport visible_of_mem_none) (h.expression hrest _ _ _)
    apply Read.Of.ite
    · exact .nothing (htrees.sublist (exportList_sublist _ _))
    apply Read.Of.ite
    · exact h.expression hrest _ _ _
    exact h.statement htrees _ none hexport visible_of_mem_none

lemma Sound.statements_succ (h : Sound source fuel) (htrees : TreesOf source trees) :
    (Ecma.statements (fuel + 1) trees).Of source := by
  rw [Ecma.statements.eq_def]
  cases trees with
  | nil => exact .nil
  | cons t rest =>
    have hfirst := h.statement htrees none none visible_of_mem_none visible_of_mem_none
    refine hfirst.found.append (h.statements ?_)
    split
    · exact hfirst.left
    · exact htrees.tail

end Statements

/-- Every part of the reader finds what stands in the source, however far it goes. The parts call one another,
always with less to go, so that one induction serves them all. -/
theorem sound (source : Text) (fuel : Nat) : Sound source fuel := by
  induction fuel with
  | zero => exact sound_zero source
  | succ fuel h =>
    exact {
      expression := h.expression_succ
      wordPart := h.wordPart_succ
      symbolPart := h.symbolPart_succ
      codeGroups := h.codeGroups_succ
      pattern := h.pattern_succ
      parameters := h.parameters_succ
      function := h.function_succ
      classFrom := h.classFrom_succ
      method := h.method_succ
      members := h.members_succ
      classMembers := h.classMembers_succ
      decorator := h.decorator_succ
      declarators := h.declarators_succ
      variableFrom := h.variableFrom_succ
      loopParts := h.loopParts_succ
      loopHead := h.loopHead_succ
      importFrom := h.importFrom_succ
      statement := h.statement_succ
      exportFrom := h.exportFrom_succ
      statements := h.statements_succ }

theorem outline_of (tagged : Bool) (source : Text) : (outline tagged source).Of source := by
  rw [outline]
  split
  · next htrees => exact Outline.Of.sorted ((sound source _).statements (trees?_of htrees))
  · exact .broken

end Steps
end Autofix.Outline.Ecma
