import CopyControl.Proofs.Document.Freed
import CopyControl.Proofs.Document.Ledger
import CopyControl.Proofs.Host.Refusal

/-!
What becomes of each node when a node gets new children.

The new children may be listed more than once, and they may come from anywhere: they may stand
alone, elsewhere, below one of the old children, or below one another. They are unlinked and linked
one after the other, and only then is looked which of the old children hang on nothing. That the
order of the list does not matter for what is freed, and for the children only in that the last
place of each counts, is because all new links end at the one node, which no listed node is above.

* `Loses` — which nodes are freed, told from the tree before the exchange
* `Exchanged` — what stands afterwards, node by node
* `atOrAbove_swapChildren_iff` — what a listed node takes with it
* `exchanged_replaceChildren` — when the exchange is refused, and what it does if it is not
-/

namespace CopyControl.Document

open Edit Relation

variable {d d' : Document} {p x : NodeId} {cs : List NodeId}

/-- A node is lost to an exchange if it is at or below an old child of `p` and no node on the way
up to that child, the two ends included, is among the new ones. -/
def Loses (d : Document) (p : NodeId) (cs : List NodeId) (x : NodeId) : Prop :=
  ∃ a ∈ d.children p, d.AtOrAbove a x ∧ ∀ y, d.AtOrAbove a y → d.AtOrAbove y x → y ∉ cs

/-- What an exchange of the children of `p` for `cs` makes of a document. -/
structure Exchanged (d : Document) (p : NodeId) (cs : List NodeId) (d' : Document) : Prop where
  /-- The children are the list, the last place of each node kept. -/
  children : d'.children p = cs.dedup
  /-- The nodes that are lost are freed, no others are, and none are made. -/
  contains : ∀ x, d'.contains x ↔ d.contains x ∧ ¬ d.Loses p cs x
  /-- With a node its listeners go, and no others do. -/
  listeners : d.KeepsListeners d'
  /-- A listed node keeps what is below it, up to other listed nodes. -/
  subtree : ∀ c ∈ cs, ∀ x, d'.AtOrAbove c x ↔
    d.AtOrAbove c x ∧ ∀ y ∈ cs, d.AtOrAbove c y → d.AtOrAbove y x → y = c
  /-- A node that is left is what it was. -/
  kind : ∀ x, d'.contains x → d'.kind? x = d.kind? x
  /-- It is where it was, unless it is listed. -/
  parent : ∀ x, d'.contains x → d'.parent? x = if x ∈ cs then some p else d.parent? x
  /-- From its children the listed ones are gone; the others keep their order. -/
  others : ∀ x, d'.contains x → x ≠ p → d'.children x = (d.children x).filter (· ∉ cs)
  /-- A node that is neither listed nor held a listed one has not been touched. -/
  untouched : ∀ x, d'.contains x → x ≠ p → x ∉ cs → (∀ c ∈ d.children x, c ∉ cs) →
    d'.node? x = d.node? x

section swap
variable (hw : d.WellFormed) (hp : d.IsElement p) (hcs : ∀ c ∈ cs, d.MayHold p c)
include hw hcs

/-- A listed node that is above a node at or below an old child is on the way between the two. -/
theorem loses_iff :
    d.Loses p cs x ↔
      (∃ a ∈ d.children p, d.AtOrAbove a x) ∧ ∀ c ∈ cs, ¬ d.AtOrAbove c x := by
  constructor
  · rintro ⟨a, ha, hax, hway⟩
    refine ⟨⟨a, ha, hax⟩, fun c hc hcx => ?_⟩
    rcases atOrAbove_total hax hcx with hac | hca
    · exact hway c hac hcx hc
    · rcases ReflTransGen.cases_head hca with rfl | ⟨q, hq, hcq⟩
      · exact hway a .refl hax hc
      · -- `c` would be above `p`
        obtain rfl : q = p := Option.some.inj (hq.symm.trans ((hw.parent_iff a p).mpr ha))
        exact ((mayHold_iff hw).mp (hcs c hc)).2 hcq
  · rintro ⟨⟨a, ha, hax⟩, hno⟩
    exact ⟨a, ha, hax, fun y _ hyx hy => hno y hy hyx⟩

/-- The way from a node up to a listed one ends at the first listed node on it. -/
theorem regrouped_atOrAbove_listed_iff {c : NodeId} (hc : c ∈ cs) :
    (d.regrouped p cs).AtOrAbove c x ↔
      d.AtOrAbove c x ∧ ∀ y ∈ cs, d.AtOrAbove c y → d.AtOrAbove y x → y = c := by
  have hcp : ¬ d.AtOrAbove c p := ((mayHold_iff hw).mp (hcs c hc)).2
  have hpar := parent?_regrouped (p := p) fun c hc => (hcs c hc).1
  constructor
  · intro h
    induction h using ReflTransGen.head_induction_on with
    | refl => exact ⟨.refl, fun y _ hcy hyc => (hw.eq_of_atOrAbove_of_atOrAbove hcy hyc).symm⟩
    | @head x z hxz hzc ih =>
      rw [Link, hpar] at hxz
      split at hxz
      · -- the next node up is `p`, which `c` is not above
        obtain rfl := Option.some.inj hxz
        exact absurd (atOrAbove_regrouped hw hcs hzc) hcp
      · rename_i hx
        split at hxz
        · simp at hxz
        · refine ⟨ih.1.head hxz, fun y hy hcy hyx => ?_⟩
          rcases ReflTransGen.cases_head hyx with rfl | ⟨q, hq, hyq⟩
          · exact absurd hy hx
          · obtain rfl : q = z := Option.some.inj (hq.symm.trans hxz)
            exact ih.2 y hy hcy hyq
  · rintro ⟨h, hfirst⟩
    refine atOrAbove_of_links h fun y z hyx hyz hcz => ?_
    have hy : y ∉ cs := fun hy => by
      obtain rfl := hfirst y hy (hcz.head hyz) hyx
      exact hw.not_atOrAbove_of_link hyz hcz
    have hyp : y ∉ d.children p := fun hm => by
      obtain rfl : z = p := Option.some.inj (hyz.symm.trans ((hw.parent_iff y p).mpr hm))
      exact hcp hcz
    rw [Link, hpar, if_neg hy, if_neg hyp]
    exact hyz

include hp

/-- What a listed node takes with it. -/
theorem atOrAbove_swapChildren_iff {c : NodeId} (hc : c ∈ cs) :
    (d.swapChildren p cs).AtOrAbove c x ↔
      d.AtOrAbove c x ∧ ∀ y ∈ cs, d.AtOrAbove c y → d.AtOrAbove y x → y = c := by
  rw [← regrouped_atOrAbove_listed_iff hw hcs hc]
  have hlink : (d.regrouped p cs).Link c p := by
    rw [Link, parent?_regrouped fun c hc => (hcs c hc).1, if_pos hc]
  obtain ⟨-, hfree⟩ := swapChildren_spec hw hp hcs
  constructor
  · refine atOrAbove_mono fun y z hyz => ?_
    rwa [Link, parent?, ← hfree.node? (contains_of_parent? hyz)]
  · -- all that hangs on `p` is still there
    refine fun h => atOrAbove_of_links h fun y z _ hyz hcz => ?_
    have hpy : (d.regrouped p cs).AtOrAbove p y := (hcz.tail hlink).head hyz
    rwa [Link, parent?, node?_swapChildren hw hp hcs .refl hpy]

theorem contains_swapChildren :
    (d.swapChildren p cs).contains x ↔ d.contains x ∧ ¬ d.Loses p cs x := by
  obtain ⟨-, hfree⟩ := swapChildren_spec hw hp hcs
  have hlive (h : (d.swapChildren p cs).contains x) : d.contains x := by
    rw [Document.contains, hfree.node? h, ← Document.contains, ← kind?_isSome, kind?_regrouped,
      kind?_isSome] at h
    exact h
  rw [loses_iff hw hcs]
  constructor
  · exact fun h => ⟨hlive h, (contains_swapChildren_iff hw hp hcs (hlive h)).mp h⟩
  · exact fun h => (contains_swapChildren_iff hw hp hcs h.1).mpr h.2

section survivor
variable (hx : (d.swapChildren p cs).contains x)
include hx

theorem kind?_swapChildren : (d.swapChildren p cs).kind? x = d.kind? x := by
  rw [kind?, (swapChildren_spec hw hp hcs).2.node? hx, ← kind?, kind?_regrouped]

/-- An old child that is not listed is lost. -/
theorem parent?_swapChildren :
    (d.swapChildren p cs).parent? x = if x ∈ cs then some p else d.parent? x := by
  rw [parent?, (swapChildren_spec hw hp hcs).2.node? hx, ← parent?,
    parent?_regrouped fun c hc => (hcs c hc).1]
  split
  · rfl
  · rename_i hxc
    refine if_neg fun hm => ((contains_swapChildren hw hp hcs).mp hx).2 ⟨x, hm, .refl, ?_⟩
    intro y hxy hyx
    rwa [hw.eq_of_atOrAbove_of_atOrAbove hyx hxy]

end survivor

theorem exchanged_swapChildren : d.Exchanged p cs (d.swapChildren p cs) where
  children := children_swapChildren hw hp hcs
  contains _ := contains_swapChildren hw hp hcs
  listeners := keepsListeners_swapChildren hw hp hcs
  subtree _ hc _ := atOrAbove_swapChildren_iff hw hp hcs hc
  kind _ hx := kind?_swapChildren hw hp hcs hx
  parent _ hx := parent?_swapChildren hw hp hcs hx
  others _ hx hxp := children_swapChildren_of_ne hw hp hcs hx hxp
  untouched x hx hxp hxc hch := by
    refine node?_eq_of_lookups (kind?_swapChildren hw hp hcs hx) ?_ ?_
    · rw [parent?_swapChildren hw hp hcs hx, if_neg hxc]
    · rw [children_swapChildren_of_ne hw hp hcs hx hxp]
      exact List.filter_eq_self.mpr fun c hc => decide_eq_true (hch c hc)

end swap

/-- **The exchange of children.** In a document that can be reached, and for any handles, it is
refused just if the node is not a live element or a listed node is dead or at or above it. If it is
not refused, it keeps and frees what `Exchanged` says. -/
theorem exchanged_replaceChildren (hd : d.Reachable) (p : NodeId) (cs : List NodeId) :
    ((replaceChildren p cs).accepts d = false ↔
      ¬ d.IsElement p ∨ ∃ c ∈ cs, d.contains c = false ∨ d.AtOrAbove c p) ∧
    ((replaceChildren p cs).accepts d →
      d.Exchanged p cs ((replaceChildren p cs).apply d).2) := by
  have hw := hd.wellFormed
  have hfit : (∀ c ∈ cs, d.MayHold p c) ↔
      ¬ ∃ c ∈ cs, d.contains c = false ∨ d.AtOrAbove c p := by
    simp only [mayHold_iff hw, not_exists, not_and, not_or, Bool.not_eq_false]
  by_cases h : d.IsElement p ∧ ∀ c ∈ cs, d.MayHold p c
  · have hok := replaceChildren_ok h.1 h.2
    have hno := hfit.mp h.2
    rw [accepts_of_ok hok, hok]
    exact ⟨by simp [h.1, hno], fun _ => exchanged_swapChildren hw h.1 h.2⟩
  · have hrefused := (replaceChildren_fails h).accepts_eq_false
    rw [hrefused]
    rw [hfit] at h
    exact ⟨by simpa [imp_iff_not_or] using h, by simp⟩

/-- A `div` that holds `p`, with an `em` and its text below, and `ul`; a `section` that holds an
`hr`; and a `b` that stands alone. -/
def scattered : List Operation :=
  [.createElement "div", .appendChild new.body ⟨3, 0⟩,
    .createElement "p", .appendChild ⟨3, 0⟩ ⟨4, 0⟩,
    .createElement "em", .appendChild ⟨4, 0⟩ ⟨5, 0⟩, .appendText ⟨5, 0⟩ "a",
    .createElement "ul", .appendChild ⟨3, 0⟩ ⟨7, 0⟩,
    .createElement "section", .appendChild new.body ⟨8, 0⟩,
    .createElement "hr", .appendChild ⟨8, 0⟩ ⟨9, 0⟩,
    .createElement "b", .addClickListener ⟨4, 0⟩ (.note "p"),
    .addClickListener ⟨5, 0⟩ (.note "em")]

/-- The `div` gets the text and the `em` around it, which stand below its old child, the `hr` from
elsewhere, its other old child, and the `b` twice. Only the `p` is lost. -/
theorem exchanged_replaceChildren_scattered :
    let d := Operation.runAll scattered new
    let cs : List NodeId := [⟨10, 0⟩, ⟨6, 0⟩, ⟨5, 0⟩, ⟨9, 0⟩, ⟨7, 0⟩, ⟨10, 0⟩]
    let d' := ((replaceChildren ⟨3, 0⟩ cs).apply d).2
    d.Reachable ∧ d.Exchanged ⟨3, 0⟩ cs d' ∧
      d'.children ⟨3, 0⟩ = [⟨6, 0⟩, ⟨5, 0⟩, ⟨9, 0⟩, ⟨7, 0⟩, ⟨10, 0⟩] ∧
      d'.contains ⟨4, 0⟩ = false ∧ d'.children ⟨5, 0⟩ = [] ∧ d'.children ⟨8, 0⟩ = [] ∧
      d'.listeners = [(⟨5, 0⟩, .note "em")] := by
  have hd := reachable_runAll scattered
  refine ⟨hd, (exchanged_replaceChildren hd _ _).2 ?_, ?_⟩
  · decide +kernel
  · decide +kernel

end CopyControl.Document
