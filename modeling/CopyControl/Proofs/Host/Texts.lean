import CopyControl.Proofs.Host.Exchange

/-!
Two ways to write a text.

`setTextContent` makes a text node, puts it in the place of all children of the node and frees what
that leaves hanging on nothing. `setText` does the same unless the only child is a text node; that
one it rewrites, and no observer hears of it. So there is one case to compare. In it a slot is taken
and another one given back on the one side, and on the other no slot is touched at all; what the
two documents have in common is what can be told without the handle of the one child.

* `Says` — a node that holds nothing but a text
* `RewrittenInPlace` — what a text that is rewritten leaves alone
* `AlikeOutside` — how alike the two documents are
* `setText_agrees_setTextContent` — the comparison, with the case that is refused
-/

namespace CopyControl.Document

open Edit Relation

/-- The only child of the node is a text node with this text. -/
def Says (d : Document) (x : NodeId) (s : String) : Prop :=
  ∃ t, d.children x = [t] ∧ d.kind? t = some (.text s)

/-- The sole text child of `x` has got another text, under the handle that it had. Nothing else has
changed: no other node, no listener, no observer and no mailbox. -/
structure RewrittenInPlace (d d' : Document) (x : NodeId) (s : String) : Prop where
  node : ∀ y, d'.node? y =
    if y ∈ d.children x then (d.node? y).map fun n => { n with kind := .text s } else d.node? y
  listeners : d'.listeners = d.listeners
  observers : d.SameObservers d'

/-- The documents can be told apart only by the handles of the children of `x`. -/
structure AlikeOutside (d d' : Document) (x : NodeId) : Prop where
  nodeCount : d'.nodeCount = d.nodeCount
  /-- This is the element with its classes and attributes. -/
  kind : ∀ y, y ∉ d.children x → y ∉ d'.children x → d'.kind? y = d.kind? y
  listeners : ∀ y, y ∉ d.children x → y ∉ d'.children x →
    d'.clickListeners y = d.clickListeners y
  html : ∀ y, y ∉ d.children x → y ∉ d'.children x → d'.outerHtml y = d.outerHtml y
  text : ∀ y, y ∉ d.children x → y ∉ d'.children x → d'.textContent y = d.textContent y

variable {d d' : Document} {x y : NodeId} {s t : String}

theorem AlikeOutside.refl (d : Document) (x : NodeId) : d.AlikeOutside d x where
  nodeCount := rfl
  kind _ _ _ := rfl
  listeners _ _ _ := rfl
  html _ _ _ := rfl
  text _ _ _ := rfl

theorem says_of_soleText? {only : NodeId} (h : d.soleText? x = some only) :
    d.children x = [only] ∧ ∃ t, d.kind? only = some (.text t) := by
  refine ⟨?_, kind?_of_soleText? h⟩
  unfold soleText? at h
  split at h
  · rename_i c hc
    split at h
    · rw [hc, Option.some.inj h]
    · simp at h
  · simp at h

theorem soleText?_eq_none_iff : d.soleText? x = none ↔ ∀ t, ¬ d.Says x t := by
  constructor
  · rintro h t ⟨c, hc, hk⟩
    simp [soleText?, hc, hk] at h
  · intro h
    cases hs : d.soleText? x with
    | none => rfl
    | some only =>
      obtain ⟨hc, t, ht⟩ := says_of_soleText? hs
      exact absurd ⟨only, hc, ht⟩ (h t)

/-- A node without children is above nothing but itself. -/
theorem atOrAbove_leaf_iff (hw : d.WellFormed) {a : NodeId} (ha : d.children a = []) :
    d.AtOrAbove a y ↔ y = a := by
  constructor
  · intro h
    rcases ReflTransGen.cases_tail h with h | ⟨c, -, hc⟩
    · exact h.symm
    · have hmem := (hw.parent_iff c a).mp hc
      simp [ha] at hmem
  · intro h
    rw [h]
    exact .refl

theorem contains_newText_fst (hw : d.WellFormed) (s : String) :
    d.contains (d.newText s).1 = false :=
  contains_createNode_fst hw.free (.text s)

theorem wellFormed_newText (hw : d.WellFormed) (s : String) : (d.newText s).2.WellFormed :=
  wellFormed_createNode hw (by simp)

/-- What comes of a document when a new text takes the place of all children of `x`. -/
def retold (d : Document) (x : NodeId) (s : String) : Document :=
  (d.newText s).2.swapChildren x [(d.newText s).1]

/-- What comes of a document when a text is rewritten. -/
def rewritten (d : Document) (only : NodeId) (s : String) : Document :=
  d.updateNode only fun n => { n with kind := .text s }

theorem clickListeners_of_dead (hw : d.WellFormed) (hy : d.contains y = false) :
    d.clickListeners y = [] := by
  rw [clickListeners, List.map_eq_nil_iff, List.filter_eq_nil_iff]
  intro l hl hly
  have hlive := hw.listeners_live l hl
  simp [of_decide_eq_true hly, hy] at hlive

/-! ## §1 A new text -/

section retold
variable (hw : d.WellFormed) (hel : d.IsElement x)
include hw hel

theorem exchanged_retold (s : String) :
    (d.newText s).2.Exchanged x [(d.newText s).1] (d.retold x s) :=
  exchanged_swapChildren (wellFormed_newText hw s) (isElement_newText hw s hel)
    (mayHold_newText hw s hel)

theorem wellFormed_retold (s : String) : (d.retold x s).WellFormed :=
  (swapChildren_spec (wellFormed_newText hw s) (isElement_newText hw s hel)
    (mayHold_newText hw s hel)).1

theorem children_retold (s : String) : (d.retold x s).children x = [(d.newText s).1] :=
  (exchanged_retold hw hel s).children

/-- The new text is nowhere else, so no other child list changes. -/
theorem children_retold_of_ne (hy : (d.retold x s).contains y) (hyx : y ≠ x) :
    (d.retold x s).children y = d.children y := by
  rw [(exchanged_retold hw hel s).others y hy hyx, children_newText hw]
  refine List.filter_eq_self.mpr fun c hc => ?_
  have hlive := hw.contains_of_child hc
  have hne := ne_of_live_of_dead hlive (contains_newText_fst hw s)
  simp [hne]

theorem kind?_retold (hy : (d.retold x s).contains y) :
    (d.retold x s).kind? y = if y = (d.newText s).1 then some (.text s) else d.kind? y := by
  rw [(exchanged_retold hw hel s).kind y hy, newText, kind?_createNode hw.free]

theorem contains_retold_fst (s : String) : (d.retold x s).contains (d.newText s).1 := by
  have hchild : (d.newText s).1 ∈ (d.retold x s).children x := by
    simp [children_retold hw hel]
  exact (wellFormed_retold hw hel s).contains_of_child hchild

theorem says_retold (s : String) : (d.retold x s).Says x s := by
  refine ⟨_, children_retold hw hel s, ?_⟩
  rw [kind?_retold hw hel (contains_retold_fst hw hel s), if_pos rfl]

theorem keepsListeners_retold (s : String) : d.KeepsListeners (d.retold x s) := by
  have h := (exchanged_retold hw hel s).listeners
  rwa [KeepsListeners, newText, listeners_createNode] at h

end retold

/-! ## §2 A text that is rewritten -/

theorem children_rewritten (d : Document) (only : NodeId) (s : String) :
    (d.rewritten only s).children = d.children :=
  children_updateNode_of_keeps d only fun _ => rfl

theorem contains_rewritten (d : Document) (only : NodeId) (s : String) :
    (d.rewritten only s).contains = d.contains :=
  contains_updateNode d only _

theorem kind?_rewritten (d : Document) (only : NodeId) (s : String) (y : NodeId) :
    (d.rewritten only s).kind? y =
      if y = only then (d.kind? y).map fun _ => .text s else d.kind? y :=
  kind?_updateNode d only (fun _ => rfl) y

theorem listeners_rewritten (d : Document) (only : NodeId) (s : String) :
    (d.rewritten only s).listeners = d.listeners :=
  listeners_updateNode ..

theorem nodeCount_rewritten (d : Document) (only : NodeId) (s : String) :
    (d.rewritten only s).nodeCount = d.nodeCount := by
  have hsize : (d.rewritten only s).slots.size = d.slots.size := by
    unfold rewritten updateNode
    split
    · exact Array.size_modify
    · rfl
  rw [nodeCount, nodeCount, hsize, rewritten, free_updateNode]

theorem rewrittenInPlace_rewritten {only : NodeId} (hch : d.children x = [only]) (s : String) :
    d.RewrittenInPlace (d.rewritten only s) x s where
  node y := by simp only [rewritten, node?_updateNode, hch, List.mem_singleton]
  listeners := listeners_rewritten d only s
  observers := sameObservers_updateNode ..

theorem says_rewritten {only : NodeId} (hch : d.children x = [only])
    (hk : d.kind? only = some (.text t)) (s : String) : (d.rewritten only s).Says x s := by
  refine ⟨only, by rw [children_rewritten, hch], ?_⟩
  rw [kind?_rewritten, if_pos rfl, hk, Option.map_some]

/-! ## §3 One text for another -/

theorem isElement_of_sole {only : NodeId} (hw : d.WellFormed) (hch : d.children x = [only]) :
    d.IsElement x :=
  hw.element_of_child only x (by simp [hch])

section sole
variable {only : NodeId} (hw : d.WellFormed) (hk : d.kind? only = some (.text t))
include hw hk

theorem children_of_text : d.children only = [] := by
  refine List.eq_nil_iff_forall_not_mem.mpr fun c hc => ?_
  have := hw.element_of_child c only hc
  simp [element?, hk, NodeKind.element?] at this

theorem newText_ne (s : String) : only ≠ (d.newText s).1 :=
  ne_of_live_of_dead (contains_of_kind? hk) (contains_newText_fst hw s)

variable (hch : d.children x = [only])
include hch

/-- Of the nodes that were there the old text is freed, and it alone. -/
theorem loses_newText_iff (s : String) :
    (d.newText s).2.Loses x [(d.newText s).1] y ↔ y = only := by
  have hw' := wellFormed_newText hw s
  have hel := isElement_of_sole hw hch
  have hleaf : (d.newText s).2.children only = [] := by
    rw [children_newText hw, children_of_text hw hk]
  have hnew : (d.newText s).2.children (d.newText s).1 = [] := by
    rw [children_newText hw, children_eq_nil_of_dead (contains_newText_fst hw s)]
  rw [loses_iff hw' (mayHold_newText hw s hel), children_newText hw, hch]
  simp only [List.mem_singleton, exists_eq_left, forall_eq, atOrAbove_leaf_iff hw' hleaf,
    atOrAbove_leaf_iff hw' hnew]
  constructor
  · exact And.left
  · intro hy
    exact ⟨hy, hy ▸ newText_ne hw hk s⟩

theorem contains_retold_iff (s : String) :
    (d.retold x s).contains y ↔ y = (d.newText s).1 ∨ d.contains y ∧ y ≠ only := by
  have hne := newText_ne hw hk s
  rw [(exchanged_retold hw (isElement_of_sole hw hch) s).contains,
    loses_newText_iff hw hk hch, newText, contains_createNode hw.free, ← newText]
  by_cases hy : y = (d.newText s).1
  · simp [hy, hne.symm]
  · simp [hy]

/-- A slot is taken and one is given back. -/
theorem nodeCount_retold (s : String) : (d.retold x s).nodeCount = d.nodeCount := by
  have hw' := wellFormed_retold hw (isElement_of_sole hw hch) s
  have honly : only ∈ d.liveNodes := mem_liveNodes_iff.mpr (contains_of_kind? hk)
  have hnew : (d.newText s).1 ∉ d.liveNodes.erase only := fun hm => by
    have hlive := mem_liveNodes_iff.mp (List.mem_of_mem_erase hm)
    simp [contains_newText_fst hw] at hlive
  have hperm : (d.retold x s).liveNodes.Perm ((d.newText s).1 :: d.liveNodes.erase only) := by
    refine (List.perm_ext_iff_of_nodup (nodup_liveNodes _)
      (List.nodup_cons.mpr ⟨hnew, (nodup_liveNodes d).erase only⟩)).mpr fun y => ?_
    rw [mem_liveNodes_iff, contains_retold_iff hw hk hch, List.mem_cons,
      (nodup_liveNodes d).mem_erase_iff, mem_liveNodes_iff, and_comm]
  rw [nodeCount_eq hw'.free, nodeCount_eq hw.free, hperm.length_eq, List.length_cons,
    List.length_erase_of_mem honly]
  have := List.length_pos_of_mem honly
  omega

theorem wellFormed_rewritten (s : String) : (d.rewritten only s).WellFormed := by
  have hsole : d.soleText? x = some only := by simp [soleText?, hch, hk]
  have hw' := wellFormed_run hw (.setText x s)
  rwa [Operation.run, setText_of_sole s hsole] at hw'

/-! ## §4 The two side by side -/

/-- Apart from the two texts the same nodes are live. -/
theorem contains_retold_eq (s : String) (hy : y ≠ only) (hnew : y ≠ (d.newText s).1) :
    (d.retold x s).contains y = (d.rewritten only s).contains y := by
  rw [Bool.eq_iff_iff, contains_retold_iff hw hk hch, contains_rewritten]
  simp [hy, hnew]

theorem kind?_retold_eq (s : String) (hy : y ≠ only) (hnew : y ≠ (d.newText s).1) :
    (d.retold x s).kind? y = (d.rewritten only s).kind? y := by
  have hlive := contains_retold_eq hw hk hch s hy hnew
  cases h : (d.retold x s).contains y with
  | false =>
    rw [h] at hlive
    rw [kind?_eq_none_iff.mpr h, kind?_eq_none_iff.mpr hlive.symm]
  | true =>
    rw [kind?_retold hw (isElement_of_sole hw hch) h, kind?_rewritten, if_neg hy, if_neg hnew]

/-- The shape of a node is the shape of what is below it, and below `x` it is the text. -/
theorem shape?_retold_eq (s : String) (hy : y ≠ only) (hnew : y ≠ (d.newText s).1) :
    (d.retold x s).shape? y = (d.rewritten only s).shape? y := by
  have hel := isElement_of_sole hw hch
  have hw₁ := wellFormed_rewritten hw hk hch s
  have hw₂ := wellFormed_retold hw hel s
  have hleaf : ∀ {e : Document} {a : NodeId}, e.WellFormed → e.kind? a = some (.text s) →
      e.shape? a = some (.node default (.text s) []) := fun he ha =>
    (shape?_eq_leaf_iff he).mpr ⟨ha, children_of_text he ha⟩
  induction y using hw₁.children_induction with
  | h y ih =>
    have hkind := kind?_retold_eq hw hk hch s hy hnew
    cases hky : (d.rewritten only s).kind? y with
    | none =>
      rw [shape?_of_dead (kind?_eq_none_iff.mp hky),
        shape?_of_dead (kind?_eq_none_iff.mp (hkind.trans hky))]
    | some k =>
      rw [shape?_eq hw₁ hky, shape?_eq hw₂ (hkind.trans hky), shapesBelow, shapesBelow]
      by_cases hyx : y = x
      · obtain ⟨_, h₁, hk₁⟩ := says_rewritten hch hk s
        obtain ⟨_, h₂, hk₂⟩ := says_retold hw hel s
        simp [hyx, h₁, h₂, hleaf hw₁ hk₁, hleaf hw₂ hk₂]
      · have hlive : (d.retold x s).contains y := contains_of_kind? (hkind.trans hky)
        rw [children_retold_of_ne hw hel hlive hyx, children_rewritten]
        congr 2
        refine List.filterMap_congr fun c hc => ih c (by rwa [children_rewritten]) ?_ ?_
        · intro h
          have hp := (hw.parent_iff c y).mpr hc
          rw [h, (hw.parent_iff only x).mpr (by simp [hch])] at hp
          exact hyx (Option.some.inj hp).symm
        · exact ne_of_live_of_dead (hw.contains_of_child hc) (contains_newText_fst hw s)

theorem alikeOutside_retold (s : String) :
    (d.rewritten only s).AlikeOutside (d.retold x s) x := by
  have hel := isElement_of_sole hw hch
  have hout {P : NodeId → Prop} (h : ∀ y, y ≠ only → y ≠ (d.newText s).1 → P y) :
      ∀ y, y ∉ (d.rewritten only s).children x → y ∉ (d.retold x s).children x → P y := by
    intro y h₁ h₂
    rw [children_rewritten, hch, List.mem_singleton] at h₁
    rw [children_retold hw hel, List.mem_singleton] at h₂
    exact h y h₁ h₂
  refine ⟨?_, hout fun y hy hnew => ?_, hout fun y hy hnew => ?_, hout fun y hy hnew => ?_,
    hout fun y hy hnew => ?_⟩
  · rw [nodeCount_retold hw hk hch, nodeCount_rewritten]
  · exact kind?_retold_eq hw hk hch s hy hnew
  · have hlive := contains_retold_eq hw hk hch s hy hnew
    cases h : (d.retold x s).contains y with
    | false =>
      rw [h] at hlive
      rw [clickListeners_of_dead (wellFormed_retold hw hel s) h,
        clickListeners_of_dead (wellFormed_rewritten hw hk hch s) hlive.symm]
    | true =>
      rw [(keepsListeners_retold hw hel s).clickListeners h, clickListeners, clickListeners,
        listeners_rewritten]
  · rw [outerHtml_eq, shape?_retold_eq hw hk hch s hy hnew, ← outerHtml_eq]
  · rw [textContent_eq, shape?_retold_eq hw hk hch s hy hnew, ← textContent_eq]

end sole

/-! ## §5 Texts -/

/-- **Two ways to write a text.** In a document that can be reached, and for any handle and any
text, the two are refused alike. If they are not refused, the two documents are alike but for the
child that says the text. And where the only child is a text, the one way rewrites that and
touches nothing else; where it is not, there is no difference at all. -/
theorem setText_agrees_setTextContent (hd : d.Reachable) (x : NodeId) (s : String) :
    let fast := (setText x s).apply d
    let slow := (setTextContent x s).apply d
    fast.1 = slow.1 ∧
    (fast.1 = .ok () →
      fast.2.AlikeOutside slow.2 x ∧ fast.2.Says x s ∧ slow.2.Says x s) ∧
    (∀ t, d.Says x t → fast.1 = .ok () ∧ d.RewrittenInPlace fast.2 x s) ∧
    ((∀ t, ¬ d.Says x t) → fast = slow) := by
  intro fast slow
  have hw := hd.wellFormed
  cases hsole : d.soleText? x with
  | none =>
    have heq : fast = slow := setText_of_not_sole s hsole
    refine ⟨by rw [heq], fun hok => ?_, fun t ht => ?_, fun _ => heq⟩
    · have hel : d.IsElement x := by
        by_contra hel
        obtain ⟨e, he⟩ := setTextContent_fails s hel
        rw [heq, show slow = _ from he] at hok
        simp at hok
      have hsays := says_retold hw hel s
      rw [heq, show slow = _ from setTextContent_ok hw s hel]
      exact ⟨.refl _ x, hsays, hsays⟩
    · exact absurd ht (soleText?_eq_none_iff.mp hsole t)
  | some only =>
    obtain ⟨hch, t, hk⟩ := says_of_soleText? hsole
    have hfast : fast = (.ok (), d.rewritten only s) := setText_of_sole s hsole
    have hslow : slow = (.ok (), d.retold x s) := setTextContent_ok hw s (isElement_of_sole hw hch)
    rw [hfast, hslow]
    refine ⟨rfl, fun _ => ⟨?_, ?_, ?_⟩, fun _ _ => ⟨rfl, ?_⟩, fun hno => ?_⟩
    · exact alikeOutside_retold hw hk hch s
    · exact says_rewritten hch hk s
    · exact says_retold hw (isElement_of_sole hw hch) s
    · exact rewrittenInPlace_rewritten hch s
    · exact absurd ⟨only, hch, hk⟩ (hno t)

/-- A paragraph whose text has a listener, below an observed body. -/
def labelled : List Operation :=
  [.createElement "p", .appendChild new.body ⟨3, 0⟩, .appendText ⟨3, 0⟩ "a",
    .addClickListener ⟨4, 0⟩ (.note "a"), .observe new.body true]

/-- In one document the text node is the old one, its listener stays and nothing is reported; in the
other it is a new one, and the listener is lost. The pages read the same. -/
theorem setText_agrees_setTextContent_labelled :
    let d := Operation.runAll labelled new
    let d₁ := ((setText ⟨3, 0⟩ "b").apply d).2
    let d₂ := ((setTextContent ⟨3, 0⟩ "b").apply d).2
    d.Reachable ∧ d₁.AlikeOutside d₂ ⟨3, 0⟩ ∧ d.RewrittenInPlace d₁ ⟨3, 0⟩ "b" ∧
      d₁.children ⟨3, 0⟩ = [⟨4, 0⟩] ∧ d₁.clickListeners ⟨4, 0⟩ = [.note "a"] ∧ d₁.queued 0 = [] ∧
      d₂.children ⟨3, 0⟩ = [⟨5, 0⟩] ∧ d₂.listeners = [] ∧
      d₂.queued 0 = [⟨⟨3, 0⟩, [⟨5, 0⟩], [⟨4, 0⟩]⟩] ∧
      d₁.outerHtml new.body = "<body><p>b</p></body>" ∧ d₂.nodeCount = 5 := by
  intro d d₁ d₂
  have hd : d.Reachable := reachable_runAll labelled
  have hsays : d.Says ⟨3, 0⟩ "a" := ⟨⟨4, 0⟩, by decide +kernel, by decide +kernel⟩
  obtain ⟨-, halike, hplace, -⟩ := setText_agrees_setTextContent hd ⟨3, 0⟩ "b"
  obtain ⟨hok, hplace⟩ := hplace "a" hsays
  obtain ⟨halike, -, -⟩ := halike hok
  exact ⟨hd, halike, hplace, by decide +kernel⟩

end CopyControl.Document
