import Autofix.Outline.Ecma.Token
import Autofix.Proofs.Outline.Token

/-! The scan of an ECMAScript source goes through the source, so its tokens stand where they say. -/
namespace Autofix.Outline.Ecma
open Text

section Scan
variable {source : Text} {s s' : State} {scan : Scan}

lemma symbolStep_of (h : scan.Of source) (hv : Visible source scan.position) : (symbolStep scan).Of source := by
  rw [symbolStep]
  split
  · exact h.emit hv _ _
  · exact h.emit hv _ _

lemma skipComment_of (h : scan.Of source) (rest : Text) : (skipComment scan rest).Of source := by
  simp only [skipComment]
  split
  · exact (h.skipTo rest).fresh true
  · exact h.skipTo rest

/-- One step in code. The end, line ends and comments yield no token; any other token starts at the character that its
case is told by, which is no blank. -/
lemma codeStep_of {tagged : Bool} (h : s.scan.Of source) (hs : codeStep tagged s = some s') : s'.scan.Of source := by
  simp only [codeStep] at hs
  split at hs
  · cases hs
    exact h
  · cases hs
    exact h.newLine
  · cases hs
    exact h.skipTo _
  · obtain ⟨rest, _, rfl⟩ := Option.map_eq_some_iff.1 hs
    exact skipComment_of h rest
  · next hrest =>
    obtain ⟨rest, _, rfl⟩ := Option.map_eq_some_iff.1 hs
    exact h.emitTo (h.visible hrest (by decide)) _ rest
  · next hrest =>
    obtain ⟨rest, _, rfl⟩ := Option.map_eq_some_iff.1 hs
    exact h.emitTo (h.visible hrest (by decide)) _ rest
  · next hrest =>
    cases hs
    exact h.emit (h.visible hrest (by decide)) _ _
  · next hrest =>
    cases hs
    exact h.emit (h.visible hrest (by decide)) _ _
  · next hrest =>
    cases hs
    exact h.emit (h.visible hrest (by decide)) _ _
  · next hrest =>
    have hv := h.visible hrest (by decide)
    split at hs
    · cases hs
      exact h.emitTo hv _ _
    · cases hs
      exact symbolStep_of h hv
  · next hrest =>
    have hv := h.visible hrest (by decide)
    split at hs
    · cases hs
      exact h.emit hv _ _
    · cases hs
      exact symbolStep_of h hv
  · next hrest =>
    split_ifs at hs with hblank
    · cases hs
      exact h.skip _
    all_goals have hv := h.visible hrest (by simpa using hblank)
    · cases hs
      exact h.skipTo _
    · cases hs
      exact h.emitTo hv _ _
    · cases hs
      exact h.emitTo hv _ _
    · cases hs
      exact symbolStep_of h hv

lemma templateStep_of (h : s.scan.Of source) (hs : templateStep s = some s') : s'.scan.Of source := by
  rw [templateStep] at hs
  split at hs
  · next hrest =>
    cases hs
    exact h.emit (h.visible hrest (by decide)) _ _
  · next rest hrest =>
    cases hs
    have hbrace : (s.scan.skip 1).rest = '\x7b' :: rest := by rw [Scan.skip, hrest, List.drop_one, List.tail_cons]
    exact (h.skip 1).emit ((h.skip 1).visible hbrace (by decide)) _ _
  · cases hs
    exact h.skip _
  · cases hs
    exact h.skip _

lemma tagStep_of (h : s.scan.Of source) (hs : tagStep s = some s') : s'.scan.Of source := by
  rw [tagStep] at hs
  split at hs
  · next hrest =>
    cases hs
    exact h.emit (h.visible hrest (by decide)) _ _
  · next hrest =>
    cases hs
    exact h.emit (h.visible hrest (by decide)) _ _
  · cases hs
    exact h.skip _
  · obtain ⟨rest, _, rfl⟩ := Option.map_eq_some_iff.1 hs
    exact h.skipTo rest
  · obtain ⟨rest, _, rfl⟩ := Option.map_eq_some_iff.1 hs
    exact h.skipTo rest
  · cases hs
    exact h.skip _

lemma childrenStep_of (h : s.scan.Of source) (hin : s.scan.position ≤ source.length) (hs : childrenStep s = some s') :
    s'.scan.Of source := by
  rw [childrenStep] at hs
  split at hs
  · next rest hrest =>
    cases hs
    refine (h.skip _).emitIf ?_ (fun hkind => absurd rfl hkind) _
    have hname := (List.takeWhile_prefix (· != '>') (l := rest)).length_le
    have hlen := congrArg List.length (hrest.symm.trans h.rest_eq)
    simp only [List.length_cons, List.length_drop] at hlen
    simp only [Scan.skip]
    omega
  · next hrest =>
    cases hs
    exact h.emit (h.visible hrest (by decide)) _ _
  · next hrest =>
    cases hs
    exact h.emit (h.visible hrest (by decide)) _ _
  · cases hs
    exact h.skip _

lemma step_of {tagged : Bool} (h : s.scan.Of source) (hin : s.scan.position ≤ source.length)
    (hs : step tagged s = some s') : s'.scan.Of source := by
  rw [step] at hs
  split at hs
  · exact templateStep_of h hs
  · exact tagStep_of h hs
  · exact childrenStep_of h hin hs
  · exact codeStep_of h hs

lemma scanFrom_of {tagged : Bool} {tokens : List Token} {fuel : Nat} (hs : s.scan.Of source)
    (h : scanFrom tagged fuel s = some tokens) :
    (∀ t ∈ tokens, t.Of source) ∧ tokens.Pairwise fun a b => a.stop ≤ b.start := by
  induction fuel generalizing s with
  | zero =>
    rw [scanFrom] at h
    split at h
    · obtain rfl := Option.some.inj h
      exact hs.reverse
    · cases h
  | succ fuel ih =>
    rw [scanFrom] at h
    split at h
    · obtain rfl := Option.some.inj h
      exact hs.reverse
    · next hne =>
      obtain ⟨s', hs', hrest⟩ := Option.bind_eq_some_iff.1 h
      exact ih (step_of hs (hs.position_le (by simpa using hne)) hs') hrest

theorem trees?_of {tagged : Bool} {trees : List Tree} (h : trees? tagged source = some trees) : TreesOf source trees := by
  obtain ⟨tokens, htokens, htrees⟩ := Option.bind_eq_some_iff.1 h
  obtain ⟨hof, horder⟩ := scanFrom_of (.start source) htokens
  exact Outline.trees?_of hof horder htrees

end Scan
end Autofix.Outline.Ecma
