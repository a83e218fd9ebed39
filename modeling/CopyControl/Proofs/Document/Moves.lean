import CopyControl.Proofs.Document.Outcome

/-!
Moves: what taking a node from one place and putting it in another does to the tree.

A node is first unlinked and then attached. `swapChildren` does this for many nodes at once, and
in between a parent stands without children; here each of its stages has its lookups and keeps
the forest well-formed, so the whole does (`swapChildren_spec`). What a stage does to a
chain of ancestors is said by `atOrAbove_of_new_link`: new links end at one node, so they change
nothing above it.
-/

namespace CopyControl.Document

open Relation

variable {d d' : Document} {p c : NodeId}

/-! ## §1 Unlinking -/

/-- A node without the link to its parent. -/
def unlink (d : Document) (c : NodeId) : Document :=
  match d.parent? c with
  | some p => d.detach p c
  | none => d

theorem contains_unlink (d : Document) (c : NodeId) : (d.unlink c).contains = d.contains := by
  unfold unlink
  split
  · exact contains_detach ..
  · rfl

theorem kind?_unlink (d : Document) (c : NodeId) : (d.unlink c).kind? = d.kind? := by
  unfold unlink
  split
  · exact kind?_detach ..
  · rfl

theorem parent?_unlink (d : Document) (c x : NodeId) :
    (d.unlink c).parent? x = if x = c then none else d.parent? x := by
  unfold unlink
  split
  · exact parent?_detach ..
  · rename_i h
    split
    · rename_i hx
      rw [hx, h]
    · rfl

theorem children_unlink (hw : d.WellFormed) (c x : NodeId) :
    (d.unlink c).children x = (d.children x).filter (· ≠ c) := by
  have hself : ∀ y, d.parent? c ≠ some y → (d.children y).filter (· ≠ c) = d.children y := by
    intro y hy
    rw [List.filter_eq_self]
    intro z hz
    have : z ≠ c := by
      rintro rfl
      exact hy ((hw.parent_iff z y).mpr hz)
    simpa using this
  unfold unlink
  split
  · rename_i p h
    rw [children_detach]
    split
    · rename_i hx
      rw [hx]
    · rename_i hx
      exact (hself x fun h' => hx (Option.some.inj (h'.symm.trans h))).symm
  · rename_i h
    exact (hself x (by simp [h])).symm

theorem unlink_rest (d : Document) (c : NodeId) :
    (d.unlink c).listeners = d.listeners ∧ (d.unlink c).observers = d.observers ∧
      (d.unlink c).mailboxes = d.mailboxes ∧ (d.unlink c).generation? = d.generation? := by
  unfold unlink
  split
  · simp [detach, generation?_updateNode]
  · simp

theorem wellFormed_unlink (hw : d.WellFormed) (c : NodeId) : (d.unlink c).WellFormed := by
  unfold unlink
  split
  · exact wellFormed_detach hw ‹_›
  · exact hw

theorem isElement_unlink (d : Document) (c p : NodeId) :
    (d.unlink c).IsElement p ↔ d.IsElement p := by
  simp only [IsElement, element?, kind?_unlink]

theorem link_of_unlink {x y : NodeId} (h : (d.unlink c).Link x y) : d.Link x y := by
  rw [Link, parent?_unlink] at h
  split at h
  · simp at h
  · exact h

theorem link_congr (h : d'.parent? = d.parent?) : d'.Link = d.Link := by
  funext c p
  simp only [Link, h]

theorem atOrAbove_congr (h : d'.parent? = d.parent?) : d'.AtOrAbove = d.AtOrAbove := by
  unfold AtOrAbove
  rw [link_congr h]

/-- Fewer links, fewer ancestors. -/
theorem atOrAbove_mono (h : ∀ x y, d'.Link x y → d.Link x y) {a n : NodeId}
    (ha : d'.AtOrAbove a n) : d.AtOrAbove a n :=
  ReflTransGen.mono h n a ha

theorem slots_cutLoose (d : Document) (c : NodeId) : (d.cutLoose c).slots = (d.unlink c).slots := by
  unfold cutLoose unlink
  cases d.parent? c with
  | none => rfl
  | some p => exact slots_notify ..

theorem wellFormed_cutLoose (hw : d.WellFormed) (c : NodeId) : (d.cutLoose c).WellFormed := by
  unfold cutLoose
  split
  · exact wellFormed_notify (wellFormed_detach hw ‹_›) _
  · exact hw

/-! ## §2 Attaching -/

/-- If all new links end at `p` and come from nodes not above `p`, nothing above `p` changes. -/
theorem atOrAbove_of_new_link {s : NodeId → Prop}
    (h : ∀ x y, d'.Link x y → d.Link x y ∨ s x ∧ y = p)
    (hs : ∀ x, s x → ¬ d.AtOrAbove x p) {a : NodeId} (ha : d'.AtOrAbove a p) :
    d.AtOrAbove a p := by
  induction ha with
  | refl => exact ReflTransGen.refl
  | tail _ hl ih =>
    rcases h _ _ hl with hl | ⟨hx, -⟩
    · exact ReflTransGen.tail ih hl
    · exact absurd ih (hs _ hx)

theorem move_eq (d : Document) (p c : NodeId) (r : Option NodeId) :
    d.move p c r = ((d.cutLoose c).attach p c r).notify (.ofAdded p c) := by
  unfold move cutLoose
  split <;> simp_all

theorem kind?_move (d : Document) (p c : NodeId) (r : Option NodeId) :
    (d.move p c r).kind? = d.kind? := by
  rw [move_eq, kind?_notify, kind?_attach, (lookups_congr (slots_cutLoose d c)).2.1, kind?_unlink]

theorem parent?_move (r : Option NodeId) (hc : d.contains c) (x : NodeId) :
    (d.move p c r).parent? x = if x = c then some p else d.parent? x := by
  obtain ⟨hcon, -, hpar, -⟩ := lookups_congr (slots_cutLoose d c)
  rw [move_eq, parent?_notify, parent?_attach r (by rw [hcon, contains_unlink]; exact hc), hpar,
    parent?_unlink]
  split <;> rfl

theorem children_move (hw : d.WellFormed) (hp : d.contains p) (c : NodeId) (r : Option NodeId)
    (x : NodeId) :
    (d.move p c r).children x =
      if x = p then insertSibling c r ((d.children p).filter (· ≠ c))
      else (d.children x).filter (· ≠ c) := by
  obtain ⟨hcon, -, -, hch⟩ := lookups_congr (slots_cutLoose d c)
  rw [move_eq, children_notify, children_attach c r (by rw [hcon, contains_unlink]; exact hp), hch]
  simp only [children_unlink hw]

theorem listeners_move (d : Document) (p c : NodeId) (r : Option NodeId) :
    (d.move p c r).listeners = d.listeners := by
  rw [move_eq, listeners_notify, attach, listeners_updateNode, listeners_updateNode, cutLoose]
  split
  · simp [detach]
  · rfl

theorem adopt_eq (d : Document) (p c : NodeId) :
    adopt p d c = (d.unlink c).attach p c none := by
  unfold adopt unlink
  split <;> simp_all

theorem mayHold_iff (hw : d.WellFormed) :
    d.MayHold p c ↔ d.contains c ∧ ¬ d.AtOrAbove c p := by
  rw [MayHold, ← hw.isInclusiveAncestor_iff, Bool.not_eq_true]

theorem wellFormed_move (hw : d.WellFormed) (r : Option NodeId) (hp : d.IsElement p)
    (h : d.MayHold p c) : (d.move p c r).WellFormed := by
  obtain ⟨hc, hcp⟩ := (mayHold_iff hw).mp h
  obtain ⟨hcon, hkind, hpar, -⟩ := lookups_congr (slots_cutLoose d c)
  rw [move_eq]
  refine wellFormed_notify (wellFormed_attach (wellFormed_cutLoose hw c) r ?_ ?_ ?_ ?_) _
  · rw [element?, hkind, kind?_unlink]
    exact hp
  · rw [hcon, contains_unlink]
    exact hc
  · rw [hpar, parent?_unlink, if_pos rfl]
  · refine fun ha => hcp (atOrAbove_mono (fun x y hl => ?_) ha)
    rw [Link, hpar] at hl
    exact link_of_unlink hl

theorem kind?_adopt (d : Document) (p c : NodeId) : (adopt p d c).kind? = d.kind? := by
  rw [adopt_eq, kind?_attach, kind?_unlink]

theorem contains_adopt (d : Document) (p c : NodeId) : (adopt p d c).contains = d.contains := by
  rw [adopt_eq, contains_attach, contains_unlink]

theorem parent?_adopt (hc : d.contains c) (x : NodeId) :
    (adopt p d c).parent? x = if x = c then some p else d.parent? x := by
  rw [adopt_eq, parent?_attach none (by rw [contains_unlink]; exact hc), parent?_unlink]
  split <;> rfl

theorem children_adopt (hw : d.WellFormed) (hp : d.contains p) (c x : NodeId) :
    (adopt p d c).children x =
      if x = p then insertSibling c none ((d.children p).filter (· ≠ c))
      else (d.children x).filter (· ≠ c) := by
  rw [adopt_eq, children_attach c none (by rw [contains_unlink]; exact hp)]
  simp only [children_unlink hw]

section adopt
variable (hw : d.WellFormed) (hp : d.IsElement p) (h : d.MayHold p c)
include hw hp h

theorem wellFormed_adopt : (adopt p d c).WellFormed := by
  obtain ⟨hc, hcp⟩ := (mayHold_iff hw).mp h
  rw [adopt_eq]
  refine wellFormed_attach (wellFormed_unlink hw c) none ((isElement_unlink d c p).mpr hp) ?_ ?_ ?_
  · rw [contains_unlink]
    exact hc
  · rw [parent?_unlink, if_pos rfl]
  · exact fun ha => hcp (atOrAbove_mono (fun _ _ => link_of_unlink) ha)

theorem mayHold_adopt {x : NodeId} (hx : d.MayHold p x) : (adopt p d c).MayHold p x := by
  rw [mayHold_iff (wellFormed_adopt hw hp h)]
  obtain ⟨hc, hcp⟩ := (mayHold_iff hw).mp h
  obtain ⟨hx, hxp⟩ := (mayHold_iff hw).mp hx
  refine ⟨by rw [contains_adopt]; exact hx, fun ha => hxp ?_⟩
  refine atOrAbove_of_new_link (s := (· = c)) (fun y z hl => ?_) ?_ ha
  · rw [Link, parent?_adopt hc] at hl
    split at hl
    · rename_i hy
      exact .inr ⟨hy, (Option.some.inj hl).symm⟩
    · exact .inl hl
  · rintro y rfl
    exact hcp

end adopt

/-! ## §3 Swapping the children of a node -/

section foldl_adopt

theorem kind?_foldl_adopt (d : Document) (p : NodeId) (cs : List NodeId) :
    (cs.foldl (adopt p) d).kind? = d.kind? := by
  induction cs generalizing d with
  | nil => rfl
  | cons c cs ih => rw [List.foldl_cons, ih, kind?_adopt]

theorem parent?_foldl_adopt {cs : List NodeId} (hcs : ∀ c ∈ cs, d.contains c) (x : NodeId) :
    (cs.foldl (adopt p) d).parent? x = if x ∈ cs then some p else d.parent? x := by
  induction cs generalizing d with
  | nil => simp
  | cons c cs ih =>
    rw [List.foldl_cons, ih, parent?_adopt (hcs c List.mem_cons_self)]
    · by_cases hx : x = c <;> by_cases hxc : x ∈ cs <;> simp [hx, hxc]
    · intro y hy
      rw [contains_adopt]
      exact hcs y (List.mem_cons_of_mem _ hy)

theorem foldl_adopt {cs : List NodeId} (hw : d.WellFormed) (hp : d.IsElement p)
    (hcs : ∀ c ∈ cs, d.MayHold p c) :
    (cs.foldl (adopt p) d).WellFormed ∧
      ∀ x ≠ p, (cs.foldl (adopt p) d).children x = (d.children x).filter (· ∉ cs) := by
  induction cs generalizing d with
  | nil => exact ⟨hw, by simp⟩
  | cons c cs ih =>
    have hc := hcs c List.mem_cons_self
    have hp' : (adopt p d c).IsElement p := by
      simpa only [IsElement, element?, kind?_adopt] using hp
    obtain ⟨hw', hch⟩ := ih (wellFormed_adopt hw hp hc) hp' fun x hx =>
      mayHold_adopt hw hp hc (hcs x (List.mem_cons_of_mem _ hx))
    refine ⟨hw', fun x hx => ?_⟩
    rw [List.foldl_cons, hch x hx, children_adopt hw (contains_of_isElement hp), if_neg hx,
      List.filter_filter]
    congr 1
    funext y
    simp [Bool.and_comm]

theorem foldl_adopt_rest (d : Document) (p : NodeId) (cs : List NodeId) :
    (cs.foldl (adopt p) d).listeners = d.listeners ∧
      (cs.foldl (adopt p) d).observers = d.observers ∧
      (cs.foldl (adopt p) d).mailboxes = d.mailboxes ∧
      (cs.foldl (adopt p) d).generation? = d.generation? := by
  induction cs generalizing d with
  | nil => exact ⟨rfl, rfl, rfl, rfl⟩
  | cons c cs ih =>
    obtain ⟨h1, h2, h3, h4⟩ := ih (adopt p d c)
    obtain ⟨g1, g2, g3, g4⟩ := unlink_rest d c
    refine ⟨h1.trans ?_, h2.trans ?_, h3.trans ?_, h4.trans ?_⟩ <;> rw [adopt_eq]
    · simp [attach, g1]
    · simp [attach, g2]
    · simp [attach, g3]
    · simp [attach, generation?_updateNode, g4]

end foldl_adopt

/-- The children of `p` let go and `cs` put in their place; nothing is told or freed yet. -/
def regrouped (d : Document) (p : NodeId) (cs : List NodeId) : Document :=
  cs.foldl (adopt p) (d.cleared p)

theorem swapChildren_eq (d : Document) (p : NodeId) (cs : List NodeId) :
    d.swapChildren p cs =
      (d.children p).foldl releaseIfOrphan
        ((d.regrouped p cs).notify ⟨p, cs, d.children p⟩) := rfl

theorem kind?_regrouped (d : Document) (p : NodeId) (cs : List NodeId) :
    (d.regrouped p cs).kind? = d.kind? := by
  rw [regrouped, kind?_foldl_adopt, kind?_cleared]

theorem parent?_regrouped {cs : List NodeId} (hcs : ∀ c ∈ cs, d.contains c) (x : NodeId) :
    (d.regrouped p cs).parent? x =
      if x ∈ cs then some p else if x ∈ d.children p then none else d.parent? x := by
  rw [regrouped, parent?_foldl_adopt (by rwa [contains_cleared]), parent?_cleared]

theorem mayHold_cleared (hw : d.WellFormed) (h : d.MayHold p c) : (d.cleared p).MayHold p c := by
  obtain ⟨hlive, hcp⟩ := (mayHold_iff hw).mp h
  rw [mayHold_iff (wellFormed_cleared hw p), contains_cleared]
  refine ⟨hlive, fun ha => hcp (atOrAbove_mono (fun x y hl => ?_) ha)⟩
  rw [Link, parent?_cleared] at hl
  split at hl
  · simp at hl
  · exact hl

section regrouped
variable {cs : List NodeId} (hw : d.WellFormed) (hp : d.IsElement p)
  (hcs : ∀ c ∈ cs, d.MayHold p c)
include hw hp hcs

theorem regrouped_spec :
    (d.regrouped p cs).WellFormed ∧
      ∀ x ≠ p, (d.regrouped p cs).children x = (d.children x).filter (· ∉ cs) := by
  have hw' := wellFormed_cleared hw p
  have hp' : (d.cleared p).IsElement p := by
    simpa only [IsElement, element?, kind?_cleared] using hp
  obtain ⟨h, hch⟩ := foldl_adopt hw' hp' fun c hc => mayHold_cleared hw (hcs c hc)
  refine ⟨h, fun x hx => ?_⟩
  rw [regrouped, hch x hx, children_cleared, if_neg hx]

end regrouped

/-! ### Freeing what nothing holds any more -/

/-- Slots may have been emptied, each at most once; what stands in the others is as it was. -/
def OnlyFrees (d d' : Document) : Prop :=
  ∀ i,
    (d'.generation? i = d.generation? i ∧ ∀ x, x.index = i → d'.node? x = d.node? x) ∨
    (d'.generation? i = (d.generation? i).map (· + 1) ∧ (∃ x, x.index = i ∧ d.contains x) ∧
      ∀ x, x.index = i → d'.node? x = none)

theorem onlyFrees_of_slots_eq (h : d'.slots = d.slots) : d.OnlyFrees d' :=
  fun i => .inl ⟨by simp only [generation?, h], fun x _ => by rw [node?_congr h]⟩

theorem OnlyFrees.trans {d'' : Document} (h : d.OnlyFrees d') (h' : d'.OnlyFrees d'') :
    d.OnlyFrees d'' := by
  intro i
  rcases h i with ⟨hg, hn⟩ | ⟨hg, hx, hn⟩ <;> rcases h' i with ⟨hg', hn'⟩ | ⟨hg', hx', hn'⟩
  · exact .inl ⟨hg'.trans hg, fun x hi => (hn' x hi).trans (hn x hi)⟩
  · obtain ⟨x, hi, hx⟩ := hx'
    refine .inr ⟨by rw [hg', hg], ⟨x, hi, ?_⟩, hn'⟩
    rwa [contains, ← hn x hi]
  · exact .inr ⟨hg'.trans hg, hx, fun x hi => (hn' x hi).trans (hn x hi)⟩
  · obtain ⟨x, hi, hx⟩ := hx'
    simp [contains, hn x hi] at hx

theorem OnlyFrees.node?_or (h : d.OnlyFrees d') (x : NodeId) :
    d'.node? x = d.node? x ∨ d'.node? x = none := by
  rcases h x.index with ⟨-, hn⟩ | ⟨-, -, hn⟩
  · exact .inl (hn x rfl)
  · exact .inr (hn x rfl)

theorem OnlyFrees.node? (h : d.OnlyFrees d') {x : NodeId} (hx : d'.contains x) :
    d'.node? x = d.node? x := by
  rcases h.node?_or x with h | h
  · exact h
  · simp [contains, h] at hx

theorem onlyFrees_releaseSubtree (hw : d.WellFormed) (id : NodeId) :
    d.OnlyFrees (d.releaseSubtree id) := by
  intro i
  have hlive : ∀ x ∈ d.descendants id, d.contains x := fun _ => hw.contains_of_mem_descendants
  have hg := generation?_foldl_vacate (hw.nodup_descendants id) hlive i
  by_cases hi : i ∈ (d.descendants id).map (·.index)
  · obtain ⟨y, hy, hyi⟩ := List.mem_map.mp hi
    rw [if_pos hi] at hg
    refine .inr ⟨hg, ⟨y, hyi, hlive y hy⟩, fun x hx => ?_⟩
    rw [node?_releaseSubtree hw]
    split
    · rfl
    · rename_i hn
      rw [← contains_eq_false_iff, ← Bool.not_eq_true]
      exact fun hc => hn (eq_of_index_eq hc (hlive y hy) (hx.trans hyi.symm) ▸ hy)
  · rw [if_neg hi] at hg
    refine .inl ⟨hg, fun x hx => ?_⟩
    rw [node?_releaseSubtree hw, if_neg fun h => hi (List.mem_map.mpr ⟨x, h, hx⟩)]

theorem releaseIfOrphan_spec (hw : d.WellFormed) (id : NodeId) :
    (d.releaseIfOrphan id).WellFormed ∧ d.OnlyFrees (d.releaseIfOrphan id) := by
  unfold releaseIfOrphan
  split
  · rename_i h
    exact ⟨wellFormed_releaseSubtree hw id (Option.isNone_iff_eq_none.mp h),
      onlyFrees_releaseSubtree hw id⟩
  · exact ⟨hw, onlyFrees_of_slots_eq rfl⟩

theorem foldl_releaseIfOrphan_spec (hw : d.WellFormed) (l : List NodeId) :
    (l.foldl releaseIfOrphan d).WellFormed ∧ d.OnlyFrees (l.foldl releaseIfOrphan d) := by
  induction l generalizing d with
  | nil => exact ⟨hw, onlyFrees_of_slots_eq rfl⟩
  | cons id l ih =>
    obtain ⟨hw1, h1⟩ := releaseIfOrphan_spec hw id
    obtain ⟨hw2, h2⟩ := ih hw1
    exact ⟨hw2, h1.trans h2⟩

theorem foldl_releaseIfOrphan_rest (d : Document) (l : List NodeId) :
    (l.foldl releaseIfOrphan d).observers = d.observers ∧
      (l.foldl releaseIfOrphan d).mailboxes = d.mailboxes := by
  induction l generalizing d with
  | nil => exact ⟨rfl, rfl⟩
  | cons id l ih =>
    obtain ⟨h1, h2⟩ := ih (d.releaseIfOrphan id)
    refine ⟨h1.trans ?_, h2.trans ?_⟩ <;> unfold releaseIfOrphan <;> split
    · exact (foldl_vacate_rest ..).1
    · rfl
    · exact (foldl_vacate_rest ..).2
    · rfl

theorem swapChildren_spec {cs : List NodeId} (hw : d.WellFormed) (hp : d.IsElement p)
    (hcs : ∀ c ∈ cs, d.MayHold p c) :
    (d.swapChildren p cs).WellFormed ∧ (d.regrouped p cs).OnlyFrees (d.swapChildren p cs) := by
  have hw' := wellFormed_notify (regrouped_spec hw hp hcs).1 ⟨p, cs, d.children p⟩
  obtain ⟨h1, h2⟩ := foldl_releaseIfOrphan_spec hw' (d.children p)
  rw [swapChildren_eq]
  exact ⟨h1, (onlyFrees_of_slots_eq (slots_notify ..)).trans h2⟩

end CopyControl.Document
