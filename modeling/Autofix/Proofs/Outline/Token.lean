import Autofix.Outline.Token
import Autofix.Proofs.Text.Line
import Autofix.Proofs.Text.Trim

/-! Tokens and token trees stand in the source where they say, one after another. -/
namespace Autofix.Outline
open Text

/-- The token is the part of the source that it says. A closing bracket may be missing at the end of the source. -/
structure Token.Of (source : Text) (t : Token) : Prop where
  inside : t.stop ≤ source.length
  text : slice source t.start t.stop = t.text
  visible : t.kind ≠ .closing → Visible source t.start

/-- All tokens of the tree are parts of the source, and those between brackets stand one after another. -/
inductive Tree.Of (source : Text) : Tree → Prop
  | leaf {token : Token} (h : token.Of source) (hvisible : Visible source token.start) : Tree.Of source (.leaf token)
  | group {opening : Token} {items : List Tree} {stop : Nat} (h : opening.Of source) (hle : opening.start ≤ stop)
      (hstop : stop ≤ source.length) (hitems : ∀ t ∈ items, Tree.Of source t)
      (horder : items.Pairwise fun a b => a.stop ≤ b.start) (hvisible : Visible source opening.start) :
      Tree.Of source (.group opening items stop)

/-- The trees are parts of the source, one after another. -/
structure TreesOf (source : Text) (trees : List Tree) : Prop where
  of : ∀ t ∈ trees, t.Of source
  order : trees.Pairwise fun a b => a.stop ≤ b.start

lemma visible_of_mem_none {source : Text} : ∀ p ∈ (none : Option Nat), Visible source p :=
  fun p hp => (Option.not_mem_none p hp).elim

section Trees
variable {source : Text} {t : Tree} {trees rest : List Tree}

lemma Tree.Of.start_le_stop (h : t.Of source) : t.start ≤ t.stop := by
  cases h with
  | leaf h => exact Nat.le_add_right _ _
  | group _ hle => exact hle

lemma Tree.Of.stop_le (h : t.Of source) : t.stop ≤ source.length := by
  cases h with
  | leaf h => exact h.inside
  | group _ _ hstop => exact hstop

lemma Tree.Of.visible (h : t.Of source) : Visible source t.start := by
  cases h with
  | leaf _ hvisible => exact hvisible
  | group _ _ _ _ _ hvisible => exact hvisible

lemma Tree.Of.inside? (h : t.Of source) {bracket : Char} {items : List Tree} (hi : t.inside? bracket = some items) :
    TreesOf source items := by
  cases h with
  | leaf => cases hi
  | group _ _ _ hitems horder =>
    rw [Tree.inside?] at hi
    split at hi
    · obtain rfl := Option.some.inj hi
      exact ⟨hitems, horder⟩
    · cases hi

lemma TreesOf.nil : TreesOf source [] := ⟨fun _ h => (List.not_mem_nil h).elim, .nil⟩

lemma TreesOf.sublist (h : TreesOf source trees) (hs : rest.Sublist trees) : TreesOf source rest :=
  ⟨fun t ht => h.of t (hs.subset ht), h.order.sublist hs⟩

lemma TreesOf.head (h : TreesOf source (t :: rest)) : t.Of source := h.of t List.mem_cons_self

lemma TreesOf.tail (h : TreesOf source (t :: rest)) : TreesOf source rest := h.sublist (List.sublist_cons_self _ _)

lemma TreesOf.stop_le_start (h : TreesOf source (t :: rest)) {u : Tree} (hu : u ∈ rest) : t.stop ≤ u.start :=
  (List.pairwise_cons.1 h.order).1 u hu

lemma TreesOf.start_le (h : TreesOf source (t :: rest)) {u : Tree} (hu : u ∈ rest) : t.start ≤ u.start :=
  h.head.start_le_stop.trans (h.stop_le_start hu)

/-- A given word or symbol takes up some of the source. -/
lemma Tree.start_lt_stop {text : String} (ht : t.isWord text = true ∨ t.isSymbol text = true)
    (hne : text.toList ≠ []) : t.start < t.stop := by
  cases t with
  | leaf token =>
    have htext : token.text = text.toList := by
      simp only [Tree.isWord, Tree.isSymbol, Bool.and_eq_true, beq_iff_eq] at ht
      exact ht.elim And.right And.right
    exact Nat.lt_add_of_pos_right (List.length_pos_iff.2 (htext ▸ hne))
  | group => simp [Tree.isWord, Tree.isSymbol] at ht

lemma TreesOf.headInside (h : TreesOf source trees) {bracket : Char} {items : List Tree}
    (hitems : trees.head?.bind (Tree.inside? bracket) = some items) : TreesOf source items := by
  obtain ⟨t, ht, hinside⟩ := Option.bind_eq_some_iff.1 hitems
  exact (h.of t (List.mem_of_head? ht)).inside? hinside

end Trees

section Scan
variable {source : Text} {s : Scan}

/-- A scan of the source under way. -/
structure Scan.Of (source : Text) (s : Scan) : Prop where
  rest_eq : s.rest = source.drop s.position
  tokens : ∀ t ∈ s.tokens, t.Of source ∧ t.stop ≤ s.position
  order : s.tokens.Pairwise fun a b => b.stop ≤ a.start

namespace Scan.Of

lemma start (source : Text) : (Scan.start source).Of source := ⟨rfl, fun _ h => (List.not_mem_nil h).elim, .nil⟩

lemma skip (h : s.Of source) (count : Nat) : (s.skip count).Of source where
  rest_eq := by rw [Scan.skip, h.rest_eq, List.drop_drop]
  tokens t ht := ⟨(h.tokens t ht).1, (h.tokens t ht).2.trans (Nat.le_add_right _ _)⟩
  order := h.order

lemma skipTo (h : s.Of source) (rest : Text) : (s.skipTo rest).Of source := h.skip _

lemma fresh (h : s.Of source) (fresh : Bool) : ({ s with fresh } : Scan).Of source := ⟨h.rest_eq, h.tokens, h.order⟩

lemma newLine (h : s.Of source) : s.newLine.Of source := (h.skip 1).fresh true

/-- A token is a part of the source, unless the scan has run past its end. -/
lemma emitIf (h : s.Of source) (hs : s.position ≤ source.length) {kind : TokenKind}
    (hvisible : kind ≠ .closing → Visible source s.position) (count : Nat) : (s.emit kind count).Of source where
  rest_eq := by rw [Scan.emit, h.rest_eq, List.drop_drop]
  tokens := by
    have hlen : s.rest.length = source.length - s.position := by rw [h.rest_eq, List.length_drop]
    rw [Scan.emit, List.forall_mem_cons]
    refine ⟨⟨⟨?_, ?_, hvisible⟩, ?_⟩, fun t ht => ?_⟩
    · simp only [Token.stop, List.length_take]
      omega
    · simp only [Token.stop]
      rw [slice, List.drop_take, Nat.add_sub_cancel_left, ← h.rest_eq, List.length_take, ← List.take_eq_take_min]
    · simp only [Token.stop, List.length_take]
      omega
    · exact ⟨(h.tokens t ht).1, (h.tokens t ht).2.trans (Nat.le_add_right _ _)⟩
  order := List.pairwise_cons.2 ⟨fun t ht => (h.tokens t ht).2, h.order⟩

lemma visible (h : s.Of source) {c : Char} {rest : Text} (hrest : s.rest = c :: rest) (hc : isBlank c = false) :
    Visible source s.position := ⟨c, by rw [← h.rest_eq, hrest, List.head?_cons], hc⟩

lemma emit (h : s.Of source) (hs : Visible source s.position) (kind : TokenKind) (count : Nat) :
    (s.emit kind count).Of source := h.emitIf hs.le (fun _ => hs) count

lemma emitTo (h : s.Of source) (hs : Visible source s.position) (kind : TokenKind) (rest : Text) :
    (s.emitTo kind rest).Of source := h.emit hs kind _

lemma position_le (h : s.Of source) (hs : s.rest.isEmpty = false) : s.position ≤ source.length := by
  by_contra hlt
  have hnil : s.rest = [] := by
    rw [h.rest_eq]
    exact List.drop_eq_nil_of_le (by omega)
  simp [hnil] at hs

lemma reverse (h : s.Of source) :
    (∀ t ∈ s.tokens.reverse, t.Of source) ∧ s.tokens.reverse.Pairwise fun a b => a.stop ≤ b.start :=
  ⟨fun t ht => (h.tokens t (List.mem_reverse.1 ht)).1, List.pairwise_reverse.2 h.order⟩

end Scan.Of

/-- The tokens of a scanner whose steps go through the source. -/
theorem scanWith_of {step : Scan → Option Scan} {tokens : List Token} {fuel : Nat}
    (hstep : ∀ {s s' : Scan}, s.Of source → step s = some s' → s'.Of source)
    (hs : s.Of source) (h : scanWith step fuel s = some tokens) :
    (∀ t ∈ tokens, t.Of source) ∧ tokens.Pairwise fun a b => a.stop ≤ b.start := by
  induction fuel generalizing s with
  | zero =>
    rw [scanWith] at h
    split at h
    · obtain rfl := Option.some.inj h
      exact hs.reverse
    · cases h
  | succ fuel ih =>
    rw [scanWith] at h
    split at h
    · obtain rfl := Option.some.inj h
      exact hs.reverse
    · obtain ⟨s', hs', hrest⟩ := Option.bind_eq_some_iff.1 h
      exact ih (hstep hs hs') hrest

end Scan

section Nesting
variable {source : Text} {level trees : List Tree} {outer : List (Token × List Tree)} {tokens : List Token} {p : Nat}

/-- Trees that have been read up to a position, the last first. -/
structure ReadUpTo (source : Text) (p : Nat) (level : List Tree) : Prop where
  of : ∀ t ∈ level, t.Of source ∧ t.stop ≤ p
  order : level.Pairwise fun a b => b.stop ≤ a.start

lemma ReadUpTo.mono {q : Nat} (h : ReadUpTo source p level) (hpq : p ≤ q) : ReadUpTo source q level :=
  ⟨fun t ht => ⟨(h.of t ht).1, (h.of t ht).2.trans hpq⟩, h.order⟩

lemma ReadUpTo.nil : ReadUpTo source p [] := ⟨fun _ h => (List.not_mem_nil h).elim, .nil⟩

lemma ReadUpTo.cons {t : Tree} (h : ReadUpTo source t.start level) (ht : t.Of source) :
    ReadUpTo source t.stop (t :: level) where
  of := List.forall_mem_cons.2 ⟨⟨ht, Nat.le_refl _⟩, (h.mono ht.start_le_stop).of⟩
  order := List.pairwise_cons.2 ⟨fun u hu => (h.of u hu).2, h.order⟩

lemma ReadUpTo.reverse (h : ReadUpTo source p level) : TreesOf source level.reverse :=
  ⟨fun t ht => (h.of t (List.mem_reverse.1 ht)).1, List.pairwise_reverse.2 h.order⟩

/-- Nesting keeps tokens where they are: the trees of tokens that stand one after another do so too. The
invariant is that each level above is read up to the bracket that it waits behind, so a closing bracket can hand
its group on to it. -/
theorem treesFrom_of (hlevel : ReadUpTo source p level)
    (houter : ∀ o ∈ outer, o.1.Of source ∧ Visible source o.1.start ∧ o.1.start ≤ p ∧ ReadUpTo source o.1.start o.2)
    (htokens : ∀ t ∈ tokens, t.Of source ∧ p ≤ t.start) (horder : tokens.Pairwise fun a b => a.stop ≤ b.start)
    (h : treesFrom level outer tokens = some trees) : TreesOf source trees := by
  induction tokens generalizing level outer p with
  | nil =>
    rw [treesFrom] at h
    split at h
    · obtain rfl := Option.some.inj h
      exact hlevel.reverse
    · cases h
  | cons token rest ih =>
    rw [List.pairwise_cons] at horder
    obtain ⟨htoken, hp⟩ := htokens token List.mem_cons_self
    have hle : token.start ≤ token.stop := Nat.le_add_right _ _
    have hrest : ∀ t ∈ rest, t.Of source ∧ token.stop ≤ t.start := fun t ht =>
      ⟨(htokens t (List.mem_cons_of_mem _ ht)).1, horder.1 t ht⟩
    have hopen : ∀ o ∈ outer, o.1.Of source ∧ Visible source o.1.start ∧ o.1.start ≤ token.stop ∧
        ReadUpTo source o.1.start o.2 := fun o ho =>
      ⟨(houter o ho).1, (houter o ho).2.1, (houter o ho).2.2.1.trans (hp.trans hle), (houter o ho).2.2.2⟩
    have hleaf : token.kind ≠ .closing → ReadUpTo source token.stop (.leaf token :: level) := fun hkind =>
      ReadUpTo.cons (t := .leaf token) (hlevel.mono hp) (.leaf htoken (htoken.visible hkind))
    rw [treesFrom.eq_def] at h
    dsimp only at h
    split at h
    · next hkind =>
      have hvisible := htoken.visible (by rw [hkind]; decide)
      exact ih .nil (List.forall_mem_cons.2 ⟨⟨htoken, hvisible, hle, hlevel.mono hp⟩, hopen⟩) hrest horder.2 h
    · split at h
      · cases h
      · next opening above more =>
        rw [List.forall_mem_cons] at hopen
        obtain ⟨⟨hof, hvisible, hbefore, habove⟩, hmore⟩ := hopen
        split at h
        · have hgroup : (Tree.group opening level.reverse token.stop).Of source :=
            .group hof hbefore htoken.inside hlevel.reverse.of hlevel.reverse.order hvisible
          exact ih (ReadUpTo.cons (t := .group opening level.reverse token.stop) habove hgroup) hmore hrest horder.2 h
        · cases h
    · next hkind => exact ih (hleaf hkind) hopen hrest horder.2 h

theorem trees?_of (htokens : ∀ t ∈ tokens, t.Of source) (horder : tokens.Pairwise fun a b => a.stop ≤ b.start)
    (h : trees? tokens = some trees) : TreesOf source trees :=
  treesFrom_of (p := 0) .nil (fun _ ho => (List.not_mem_nil ho).elim) (fun t ht => ⟨htokens t ht, Nat.zero_le _⟩) horder h

theorem treesWith?_of {step : Scan → Option Scan}
    (hstep : ∀ {s s' : Scan}, s.Of source → step s = some s' → s'.Of source)
    (h : treesWith? step source = some trees) : TreesOf source trees := by
  obtain ⟨tokens, htokens, htrees⟩ := Option.bind_eq_some_iff.1 h
  obtain ⟨hof, horder⟩ := scanWith_of hstep (.start source) htokens
  exact trees?_of hof horder htrees

end Nesting

end Autofix.Outline
