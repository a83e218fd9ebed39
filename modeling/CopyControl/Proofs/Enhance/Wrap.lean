import CopyControl.Enhance.Pass
import CopyControl.Proofs.Document.Steps

/-!
What giving one block a control does to a document.

`wrapBlock` takes a dozen steps on a document, and the lookups of the end are those of the start
with a few changes made (`wrapBlock_spec`). No step can fail: the nodes that are moved are new, or
go below a new one.

* §1 a new control
* §2 a new wrapper, and new actions
* §3 a block in its wrapper
-/

namespace CopyControl.Document

open Relation Edit Enhance

variable {d d' d'' : Document}

/-! ## §1 A new control -/

/-- The element of a new control. -/
def controlElement : Element where
  tag := "button"
  classes := [buttonClass]
  attributes := [("type", "button")]

/-- An element that only holds others, known by its class. -/
def boxElement (c : String) : Element where
  tag := "div"
  classes := [c]
  attributes := []

theorem ofTag_eq {tag : String} (h : tag.toList.map Char.toLower = tag.toList) :
    Element.ofTag tag = ⟨tag, [], []⟩ := by
  have : tag.map Char.toLower = tag := by rw [← String.toList_inj, String.toList_map, h]
  rw [Element.ofTag, this]

theorem createBox_setsKind (hw : d.WellFormed) (c : String) :
    ∃ x d₁ d₂, (createElement "div").apply d = (.ok x, d₁) ∧
      (addClass x c).apply d₁ = (.ok (), d₂) ∧ d.contains x = false ∧
      d.SetsKind d₂ x (.element (boxElement c)) := by
  obtain ⟨x, d₁, h₁, hx, s₁⟩ := createElement_setsKind hw "div"
  obtain ⟨d₂, h₂, s₂⟩ := addClass_setsKind s₁.wellFormed s₁.element? c
  refine ⟨x, d₁, d₂, h₁, h₂, hx, ?_⟩
  have he : (Element.ofTag "div").addClass c = boxElement c := by
    rw [ofTag_eq (by decide)]
    rfl
  rw [← he]
  exact s₁.trans s₂

/-- `d'` is `d` with a new control for the block `code`, and its label. -/
structure AddsControl (d d' : Document) (code button label : NodeId) (clipboard : String) :
    Prop where
  wellFormed : d'.WellFormed
  fresh : d.contains button = false ∧ d.contains label = false ∧ button ≠ label
  kind? : ∀ y, d'.kind? y =
    if y = button then some (.element controlElement)
    else if y = label then some (.text ControlLabel.copy.text) else d.kind? y
  parent? : ∀ y, d'.parent? y = if y = label then some button else d.parent? y
  children : ∀ y, d'.children y = if y = button then [label] else d.children y
  listeners : d'.listeners = d.listeners ++ [(button, .copyBlock code button clipboard)]

/-- Put in front of a sibling that is then taken away, a node stands in its place. -/
theorem filter_insertSibling {c r : NodeId} {l : List NodeId} (hn : l.Nodup) (hr : r ∈ l)
    (hc : c ∉ l) :
    (insertSibling c (some r) l).filter (· ≠ r) = l.map fun x => if x = r then c else x := by
  induction l with
  | nil => simp at hr
  | cons s l ih =>
    obtain ⟨hs, hn⟩ := List.nodup_cons.mp hn
    obtain ⟨hcs, hcl⟩ := not_or.mp (List.mem_cons.not.mp hc)
    rw [insertSibling]
    by_cases h : s = r
    · subst h
      have hne : ∀ x ∈ l, x ≠ s := fun x hx hxs => hs (hxs ▸ hx)
      have hmap : (l.map fun x => if x = s then c else x) = l :=
        (List.map_congr_left fun x hx => if_neg (hne x hx)).trans (List.map_id' l)
      have hfilter : l.filter (· ≠ s) = l :=
        List.filter_eq_self.mpr fun x hx => by simpa using hne x hx
      rw [if_pos rfl, List.filter_cons_of_pos (by simpa using hcs),
        List.filter_cons_of_neg (by simp), hfilter, List.map_cons, if_pos rfl, hmap]
    · have hr' : r ∈ l := List.mem_of_ne_of_mem (Ne.symm h) hr
      rw [if_neg (by simpa using h), List.filter_cons_of_pos (by simpa using h),
        ih hn hr' hcl, List.map_cons, if_neg h]

theorem not_atOrAbove_of_orphan {a n : NodeId} (hn : d.parent? n = none) (hne : a ≠ n) :
    ¬ d.AtOrAbove a n :=
  fun h => hne (eq_of_atOrAbove_of_parent?_none h hn)

/-! ### Two moves -/

/-- A wrapper put in front of a node that then goes into it takes the node's place. -/
theorem insert_wrapper (hw : d.WellFormed) {w pre container : NodeId}
    (hpre : d.parent? pre = some container) (hel : d.IsElement w) (horphan : d.parent? w = none)
    (hnil : d.children w = []) :
    ∃ d₁ d₂, (insertBefore container w (some pre)).apply d = (.ok (), d₁) ∧
      (appendChild w pre).apply d₁ = (.ok (), d₂) ∧ d₂.WellFormed ∧ d₂.kind? = d.kind? ∧
      (∀ y, d₂.parent? y =
        if y = pre then some w else if y = w then some container else d.parent? y) ∧
      (∀ y, d₂.children y =
        if y = w then [pre] else (d.children y).map fun x => if x = pre then w else x) ∧
      d₂.listeners = d.listeners := by
  have hmem : pre ∈ d.children container := (hw.parent_iff pre container).mp hpre
  have hwc : w ≠ container := by
    rintro rfl
    simp [hnil] at hmem
  have hwp : w ≠ pre := by
    rintro rfl
    simp [horphan] at hpre
  have hbelow : ¬ d.AtOrAbove w container := by
    rw [hw.atOrAbove_iff, hnil]
    simpa using hwc.symm
  obtain ⟨d₁, h₁, m₁⟩ := insertBefore_moves hw (r := some pre) (hw.element_of_child _ _ hmem)
    (contains_of_isElement hel) hbelow (by simpa using ⟨hpre, hwp.symm⟩)
  have hp₁ : d₁.parent? pre = some container := by rw [m₁.parent?, if_neg hwp.symm, hpre]
  have hwpre : ¬ d₁.AtOrAbove pre w := by
    intro h
    rcases ReflTransGen.cases_head h with h | ⟨x, hx, h⟩
    · exact hwp h
    · rw [Link, m₁.parent?, if_pos rfl] at hx
      exact m₁.wellFormed.not_atOrAbove_of_link hp₁ (Option.some.inj hx ▸ h)
  have hel₁ : d₁.IsElement w := by simpa only [IsElement, element?, m₁.kind?] using hel
  obtain ⟨d₂, h₂, m₂⟩ := insertBefore_moves m₁.wellFormed (r := none) hel₁
    (contains_of_parent? hp₁) hwpre (by simp)
  refine ⟨d₁, d₂, h₁, h₂, m₂.wellFormed, m₂.kind?.trans m₁.kind?, fun y => ?_, fun y => ?_,
    m₂.listeners.trans m₁.listeners⟩
  · rw [m₂.parent?, m₁.parent?]
  · have hfilter := filter_children_of_orphan hw horphan
    have hnot : w ∉ d.children container := by
      rw [← hw.parent_iff, horphan]
      simp
    rw [m₂.children, m₁.children, m₁.children, if_neg hwc, hfilter, hfilter, hnil, hfilter]
    by_cases hy : y = w
    · rw [if_pos hy, if_pos hy]
      rfl
    rw [if_neg hy, if_neg hy]
    by_cases hyc : y = container
    · rw [if_pos hyc, hyc]
      exact filter_insertSibling (hw.children_nodup container) hmem hnot
    · rw [if_neg hyc]
      have hout : ∀ x ∈ d.children y, x ≠ pre := by
        rintro x hx rfl
        rw [← hw.parent_iff, hpre] at hx
        exact hyc (Option.some.inj hx).symm
      rw [List.filter_eq_self.mpr fun x hx => by simpa using hout x hx]
      exact ((List.map_congr_left fun x hx => if_neg (hout x hx)).trans (List.map_id' _)).symm

/-- A node put into a new box, and the box put last below another node. -/
theorem append_box (hw : d.WellFormed) {w a b : NodeId} (hel : d.IsElement a)
    (horphan : d.parent? a = none) (hnil : d.children a = []) (hb : d.contains b)
    (hbo : d.parent? b = none) (hab : b ≠ a) (hwel : d.IsElement w) (hwa : w ≠ a)
    (hbw : ¬ d.AtOrAbove b w) :
    ∃ d₁ d₂, (appendChild a b).apply d = (.ok (), d₁) ∧
      (appendChild w a).apply d₁ = (.ok (), d₂) ∧ d₂.WellFormed ∧ d₂.kind? = d.kind? ∧
      (∀ y, d₂.parent? y = if y = a then some w else if y = b then some a else d.parent? y) ∧
      (∀ y, d₂.children y =
        if y = w then d.children w ++ [a] else if y = a then [b] else d.children y) ∧
      d₂.listeners = d.listeners := by
  obtain ⟨d₁, h₁, m₁⟩ := insertBefore_moves hw (r := none) hel hb
    (not_atOrAbove_of_orphan horphan hab) (by simp)
  have hch₁ : ∀ y, d₁.children y = if y = a then [b] else d.children y := by
    intro y
    rw [m₁.children, hnil, filter_children_of_orphan hw hbo]
    rfl
  have haw : ¬ d₁.AtOrAbove a w := by
    rw [m₁.wellFormed.atOrAbove_iff, hch₁, if_pos rfl]
    rintro (h | ⟨c, hc, h⟩)
    · exact hwa h
    · obtain rfl := List.mem_singleton.mp hc
      exact hbw (m₁.atOrAbove_below h)
  have hwel₁ : d₁.IsElement w := by simpa only [IsElement, element?, m₁.kind?] using hwel
  have ha₁ : d₁.contains a := by
    rw [contains_eq_of_kind? (congrFun m₁.kind? a)]
    exact contains_of_isElement hel
  have hpa₁ : d₁.parent? a = none := by rw [m₁.parent?, if_neg hab.symm, horphan]
  obtain ⟨d₂, h₂, m₂⟩ := insertBefore_moves m₁.wellFormed (r := none) hwel₁ ha₁ haw (by simp)
  refine ⟨d₁, d₂, h₁, h₂, m₂.wellFormed, m₂.kind?.trans m₁.kind?, fun y => ?_, fun y => ?_,
    m₂.listeners.trans m₁.listeners⟩
  · rw [m₂.parent?, m₁.parent?]
  · rw [m₂.children, insertSibling_none, filter_children_of_orphan m₁.wellFormed hpa₁,
      filter_children_of_orphan m₁.wellFormed hpa₁, hch₁, hch₁, if_neg hwa]

/-- Where there were no children, swapping them for one node puts that node there. -/
theorem swapChildren_moves (hw : d.WellFormed) {p c : NodeId} (hp : d.IsElement p)
    (hc : d.MayHold p c) (hch : d.children p = []) : d.Moves (d.swapChildren p [c]) p c none := by
  have hcs : ∀ x ∈ [c], d.MayHold p x := by simpa using hc
  have hswap : d.swapChildren p [c] = (adopt p (d.cleared p) c).notify ⟨p, [c], []⟩ := by
    rw [swapChildren_eq, hch, List.foldl_nil, regrouped, List.foldl_cons, List.foldl_nil]
  have hcl : (d.cleared p).children = d.children := by
    funext y
    rw [children_cleared]
    split
    · rename_i hy
      rw [hy, hch]
    · rfl
  refine ⟨(swapChildren_spec hw hp hcs).1, ?_, fun y => ?_, fun y => ?_, ?_, fun _ o ho => ?_⟩
  · rw [hswap, kind?_notify, kind?_adopt, kind?_cleared]
  · rw [hswap, parent?_notify, parent?_adopt (by rw [contains_cleared]; exact hc.1),
      parent?_cleared, hch]
    simp
  · have hp' : (d.cleared p).contains p := by
      rw [contains_cleared]
      exact contains_of_isElement hp
    rw [hswap, children_notify, children_adopt (wellFormed_cleared hw p) hp', hcl]
  · rw [hswap, listeners_notify, adopt_eq, attach, listeners_updateNode, listeners_updateNode,
      (unlink_rest _ c).1, cleared, (foldl_orphan_rest _ _).1, listeners_updateNode]
  · have hsame : d.SameObservers (adopt p (d.cleared p) c) := sameObservers_regrouped d p [c]
    rw [hswap, atOrAbove_congr (parent?_notify ..)] at ho
    rw [hswap]
    refine hsame.untold.trans (untold_notify fun g hg => ?_)
    rw [registrationsOf_congr hsame] at hg
    exact watches_eq_false (ho g hg)

/-- A first text for an element is a new node below it. -/
theorem setText_of_childless (hw : d.WellFormed) {id : NodeId} (hid : d.IsElement id)
    (hch : d.children id = []) (s : String) :
    ∃ t d₁ d₂, (setText id s).apply d = (.ok (), d₂) ∧ d.contains t = false ∧
      d.SetsKind d₁ t (.text s) ∧ d₁.Moves d₂ id t none := by
  have hsole : d.soleText? id = none := by simp [soleText?, hch]
  have hset := setsKind_createNode hw (k := .text s) (by simp)
  have hmay := mayHold_createNode hw (.text s) (contains_of_isElement hid) (by simp)
  refine ⟨_, _, _, ?_, contains_createNode_fst hw.free _, hset,
    swapChildren_moves hset.wellFormed (isElement_createNode hw _ hid) hmay ?_⟩
  · rw [setText_of_not_sole s hsole, setTextContent_ok hw s hid]
    rfl
  · rw [hset.children, hch]

theorem addClickListener_spec (hw : d.WellFormed) {id : NodeId} (hid : d.contains id)
    (l : Listener) :
    ∃ d', (addClickListener id l).apply d = (.ok (), d') ∧ d'.WellFormed ∧
      d'.kind? = d.kind? ∧ d'.parent? = d.parent? ∧ d'.children = d.children ∧
      d'.listeners = d.listeners ++ [(id, l)] :=
  ⟨_, addClickListener_ok l hid, wellFormed_addListener hw hid l, rfl, rfl, rfl, rfl⟩

theorem createControl_spec (hw : d.WellFormed) (code : NodeId) (clipboard : String) :
    ∃ button label d', (createControl code clipboard).apply d = (.ok button, d') ∧
      d.AddsControl d' code button label clipboard := by
  obtain ⟨b, d₁, h₁, hb, s₁⟩ := createElement_setsKind hw "button"
  obtain ⟨d₂, h₂, s₂⟩ := addClass_setsKind s₁.wellFormed s₁.element? buttonClass
  obtain ⟨d₃, h₃, s₃⟩ := updateElement_setsKind s₂.wellFormed s₂.element?
    (f := (·.setAttribute "type" "button")) fun h => Element.noRepeats_setAttribute h _ _
  have s := (s₁.trans s₂).trans s₃
  have he : ((Element.ofTag "button").addClass buttonClass).setAttribute "type" "button" =
      controlElement := by
    rw [ofTag_eq (by decide)]
    rfl
  rw [he] at s
  have hch : d₃.children b = [] := by rw [s.children, children_eq_nil_of_dead hb]
  obtain ⟨t, d₄, d₅, h₅, ht, s₄, m⟩ := setText_of_childless s.wellFormed
    (Option.isSome_of_mem s.element?) hch ControlLabel.copy.text
  have hbt : b ≠ t := by
    rintro rfl
    exact absurd ((s.contains b).mpr (.inl rfl)) (by simp [ht])
  have hkind : ∀ y, d₅.kind? y =
      if y = b then some (.element controlElement)
      else if y = t then some (.text ControlLabel.copy.text) else d.kind? y := by
    intro y
    rw [m.kind?, s₄.kind?, s.kind?]
    by_cases hy : y = b <;> simp [hy, hbt]
  have hb₅ : d₅.contains b := contains_of_kind? (by rw [hkind, if_pos rfl])
  obtain ⟨d₆, h₆, hw₆, hk₆, hp₆, hc₆, hl₆⟩ :=
    addClickListener_spec m.wellFormed hb₅ (.copyBlock code b clipboard)
  refine ⟨b, t, d₆, ?_, hw₆, ⟨hb, ?_, hbt⟩, fun y => ?_, fun y => ?_, fun y => ?_, ?_⟩
  · rw [createControl, apply_bind_ok h₁, apply_bind_ok h₂, setAttribute, apply_bind_ok h₃,
      apply_bind_ok h₅, apply_bind_ok h₆]
    rfl
  · rw [← Bool.not_eq_true] at ht ⊢
    exact fun h => ht ((s.contains t).mpr (.inr h))
  · rw [hk₆, hkind]
  · rw [hp₆, m.parent?, s₄.parent?, s.parent?]
  · rw [hc₆, m.children, s₄.children, hch, s.children]
    have hfilter : (d.children y).filter (· ≠ t) = d.children y :=
      filter_children_of_orphan hw (by rw [← s.parent?, parent?_eq_none_of_dead ht]) y
    by_cases hy : y = b
    · simp [hy, insertSibling]
    · rw [if_neg hy, if_neg hy, hfilter]
  · rw [hl₆, m.listeners, s₄.listeners, s.listeners]

/-! ## §2 A new wrapper, and new actions -/

/-- The steps that put `pre` into a new wrapper. -/
def placeWrapper (pre container : NodeId) : Edit NodeId := do
  let wrapper ← createElement "div"
  addClass wrapper wrapperClass
  addClass pre wrapLinesClass
  insertBefore container wrapper (some pre)
  appendChild wrapper pre
  return wrapper

/-- The steps that put `button` into a new box in `wrapper`. -/
def placeActions (wrapper button : NodeId) : Edit Unit := do
  let actions ← createElement "div"
  addClass actions actionsClass
  appendChild actions button
  appendChild wrapper actions

theorem wrapBlock_eq (code pre container : NodeId) (clipboard : String) :
    wrapBlock code pre container clipboard = (do
      let button ← createControl code clipboard
      let wrapper ← placeWrapper pre container
      placeActions wrapper button
      addClass pre enhancedClass) := by
  simp only [wrapBlock, placeWrapper, placeActions, bind_assoc, pure_bind]

theorem placeWrapper_spec (hw : d.WellFormed) {pre container : NodeId} {e : Element}
    (he : d.element? pre = some e) (hpre : d.parent? pre = some container) :
    ∃ w d', (placeWrapper pre container).apply d = (.ok w, d') ∧ d.contains w = false ∧
      d'.WellFormed ∧
      (∀ y, d'.kind? y =
        if y = w then some (.element (boxElement wrapperClass))
        else if y = pre then some (.element (e.addClass wrapLinesClass)) else d.kind? y) ∧
      (∀ y, d'.parent? y =
        if y = pre then some w else if y = w then some container else d.parent? y) ∧
      (∀ y, d'.children y =
        if y = w then [pre] else (d.children y).map fun x => if x = pre then w else x) ∧
      d'.listeners = d.listeners := by
  obtain ⟨w, d₁, d₂, h₁, h₂, hwd, s₂⟩ := createBox_setsKind hw wrapperClass
  have hpw : pre ≠ w := ne_of_live_of_dead (contains_of_element? he) hwd
  have he₂ : d₂.element? pre = some e := by
    rw [element?_eq_some_iff, s₂.kind?, if_neg hpw, element?_eq_some_iff.mp he]
  obtain ⟨d₃, h₃, s₃⟩ := addClass_setsKind s₂.wellFormed he₂ wrapLinesClass
  have hkind : ∀ y, d₃.kind? y =
      if y = w then some (.element (boxElement wrapperClass))
      else if y = pre then some (.element (e.addClass wrapLinesClass)) else d.kind? y := by
    intro y
    rw [s₃.kind?, s₂.kind?]
    by_cases hyw : y = w
    · simp [hyw, hpw.symm]
    · simp [hyw]
  have hpar : d₃.parent? = d.parent? := s₃.parent?.trans s₂.parent?
  have hch : d₃.children = d.children := s₃.children.trans s₂.children
  have hel : d₃.IsElement w :=
    Option.isSome_of_mem (element?_eq_some_iff.mpr (by rw [hkind, if_pos rfl]))
  obtain ⟨d₄, d₅, h₄, h₅, hw₅, hk₅, hp₅, hc₅, hl₅⟩ := insert_wrapper s₃.wellFormed
    (by rw [hpar, hpre]) hel (by rw [hpar, parent?_eq_none_of_dead hwd])
    (by rw [hch, children_eq_nil_of_dead hwd])
  refine ⟨w, d₅, ?_, hwd, hw₅, fun y => ?_, fun y => ?_, fun y => ?_, ?_⟩
  · rw [placeWrapper, apply_bind_ok h₁, apply_bind_ok h₂, apply_bind_ok h₃, apply_bind_ok h₄,
      apply_bind_ok h₅]
    rfl
  · rw [hk₅, hkind]
  · rw [hp₅, hpar]
  · rw [hc₅, hch]
  · rw [hl₅, s₃.listeners, s₂.listeners]

theorem placeActions_spec (hw : d.WellFormed) {w b : NodeId} (hwel : d.IsElement w)
    (hb : d.contains b) (hbo : d.parent? b = none) (hbw : ¬ d.AtOrAbove b w) :
    ∃ a d', (placeActions w b).apply d = (.ok (), d') ∧ d.contains a = false ∧ d'.WellFormed ∧
      (∀ y, d'.kind? y =
        if y = a then some (.element (boxElement actionsClass)) else d.kind? y) ∧
      (∀ y, d'.parent? y = if y = a then some w else if y = b then some a else d.parent? y) ∧
      (∀ y, d'.children y =
        if y = w then d.children w ++ [a] else if y = a then [b] else d.children y) ∧
      d'.listeners = d.listeners := by
  obtain ⟨a, d₁, d₂, h₁, h₂, had, s⟩ := createBox_setsKind hw actionsClass
  have hwa : w ≠ a := ne_of_live_of_dead (contains_of_isElement hwel) had
  have hba : b ≠ a := ne_of_live_of_dead hb had
  have hwel₂ : d₂.IsElement w := by
    simpa only [IsElement, element?, s.kind?, if_neg hwa] using hwel
  have hbw₂ : ¬ d₂.AtOrAbove b w := by
    refine fun h => hbw (atOrAbove_mono (fun x y hl => ?_) h)
    rwa [Link, s.parent?] at hl
  obtain ⟨d₃, d₄, h₃, h₄, hw₄, hk₄, hp₄, hc₄, hl₄⟩ := append_box s.wellFormed
    (Option.isSome_of_mem s.element?) (by rw [s.parent?, parent?_eq_none_of_dead had])
    (by rw [s.children, children_eq_nil_of_dead had]) ((s.contains b).mpr (.inr hb))
    (by rw [s.parent?, hbo]) hba hwel₂ hwa hbw₂
  refine ⟨a, d₄, ?_, had, hw₄, fun y => ?_, fun y => ?_, fun y => ?_, ?_⟩
  · rw [placeActions, apply_bind_ok h₁, apply_bind_ok h₂, apply_bind_ok h₃, h₄]
  · rw [hk₄, s.kind?]
  · rw [hp₄, s.parent?]
  · rw [hc₄, s.children]
  · rw [hl₄, s.listeners]

/-! ## §3 A block in its wrapper -/

/-- What is not there with a new control is not part of it, and was not there before. -/
theorem AddsControl.dead {code b t : NodeId} {clipboard : String}
    (h : d.AddsControl d' code b t clipboard) {y : NodeId} (hy : d'.contains y = false) :
    y ≠ b ∧ y ≠ t ∧ d.contains y = false := by
  rw [← kind?_eq_none_iff, h.kind?] at hy
  split at hy
  · simp at hy
  split at hy
  · simp at hy
  · exact ⟨‹_›, ‹_›, kind?_eq_none_iff.mp hy⟩

/-- A block that got a control, and the nodes that were made for it. -/
structure Outfit where
  code : NodeId
  pre : NodeId
  wrapper : NodeId
  actions : NodeId
  button : NodeId
  label : NodeId

namespace Outfit

/-- The nodes that were made. -/
def made (o : Outfit) : List NodeId :=
  [o.wrapper, o.actions, o.button, o.label]

theorem distinct {o : Outfit} (h : o.made.Nodup) :
    o.wrapper ≠ o.actions ∧ o.wrapper ≠ o.button ∧ o.wrapper ≠ o.label ∧
      o.actions ≠ o.button ∧ o.actions ≠ o.label ∧ o.button ≠ o.label := by
  simpa [made, not_or, and_assoc] using h

/-- What each of the nodes made is. -/
def madeKind (o : Outfit) (y : NodeId) : NodeKind :=
  if y = o.wrapper then .element (boxElement wrapperClass)
  else if y = o.actions then .element (boxElement actionsClass)
  else if y = o.button then .element controlElement
  else .text ControlLabel.copy.text

/-- Where each of the nodes made is. The wrapper has the place the `pre` had in `container`. -/
def madeParent (o : Outfit) (container y : NodeId) : NodeId :=
  if y = o.wrapper then container
  else if y = o.actions then o.wrapper
  else if y = o.button then o.actions
  else o.button

/-- What each of the nodes made holds. -/
def madeChildren (o : Outfit) (y : NodeId) : List NodeId :=
  if y = o.wrapper then [o.pre, o.actions]
  else if y = o.actions then [o.button]
  else if y = o.button then [o.label]
  else []

end Outfit

/-- The marks of an element that has been enhanced. -/
def marked (e : Element) : Element :=
  (e.addClass wrapLinesClass).addClass enhancedClass

/-- `d'` is `d` with the outfit `o` made for the element `e`, which was below `container`. -/
structure Wraps (d d' : Document) (o : Outfit) (e : Element) (container : NodeId)
    (clipboard : String) : Prop where
  wellFormed : d'.WellFormed
  nodup : o.made.Nodup
  fresh : ∀ y ∈ o.made, d.contains y = false
  kind? : ∀ y, d'.kind? y =
    if y ∈ o.made then some (o.madeKind y)
    else if y = o.pre then some (.element (marked e)) else d.kind? y
  parent? : ∀ y, d'.parent? y =
    if y ∈ o.made then some (o.madeParent container y)
    else if y = o.pre then some o.wrapper else d.parent? y
  children : ∀ y, d'.children y =
    if y ∈ o.made then o.madeChildren y
    else (d.children y).map fun x => if x = o.pre then o.wrapper else x
  listeners : d'.listeners = d.listeners ++ [(o.button, .copyBlock o.code o.button clipboard)]

theorem Wraps.kind?_rest {o : Outfit} {e : Element} {container y : NodeId} {clipboard : String}
    (h : d.Wraps d' o e container clipboard) (hy : y ∉ o.made) (hp : y ≠ o.pre) :
    d'.kind? y = d.kind? y := by
  rw [h.kind?, if_neg hy, if_neg hp]

theorem Wraps.parent?_rest {o : Outfit} {e : Element} {container y : NodeId} {clipboard : String}
    (h : d.Wraps d' o e container clipboard) (hy : y ∉ o.made) (hp : y ≠ o.pre) :
    d'.parent? y = d.parent? y := by
  rw [h.parent?, if_neg hy, if_neg hp]

/-- No step of wrapping a block can fail. -/
theorem wrapBlock_spec (hw : d.WellFormed) (code : NodeId) {pre container : NodeId} {e : Element}
    (he : d.element? pre = some e) (hpre : d.parent? pre = some container)
    (clipboard : String) :
    ∃ o d', (wrapBlock code pre container clipboard).apply d = (.ok (), d') ∧
      o.code = code ∧ o.pre = pre ∧ d.Wraps d' o e container clipboard := by
  have hlive := contains_of_element? he
  have hek := element?_eq_some_iff.mp he
  -- the control
  obtain ⟨b, t, d₁, h₁, c₁⟩ := createControl_spec hw code clipboard
  obtain ⟨hb, ht, hbt⟩ := c₁.fresh
  have hpb : pre ≠ b := ne_of_live_of_dead hlive hb
  have hpt : pre ≠ t := ne_of_live_of_dead hlive ht
  have he₁ : d₁.element? pre = some e := by
    rw [element?_eq_some_iff, c₁.kind?, if_neg hpb, if_neg hpt, hek]
  -- the wrapper
  obtain ⟨w, d₂, h₂, hwd₁, hw₂, hk₂, hp₂, hc₂, hl₂⟩ := placeWrapper_spec c₁.wellFormed he₁
    (by rw [c₁.parent?, if_neg hpt, hpre])
  obtain ⟨hwb, hwt, hwd⟩ := c₁.dead hwd₁
  have hpw : pre ≠ w := ne_of_live_of_dead hlive hwd
  -- the actions
  have hchb : d₂.children b = [t] := by
    rw [hc₂, if_neg hwb.symm, c₁.children, if_pos rfl]
    simp [hpt.symm]
  have hcht : d₂.children t = [] := by
    rw [hc₂, if_neg hwt.symm, c₁.children, if_neg hbt.symm, children_eq_nil_of_dead ht]
    rfl
  have hbw : ¬ d₂.AtOrAbove b w := by
    rw [hw₂.atOrAbove_iff, hchb]
    simp only [List.mem_singleton, exists_eq_left, hw₂.atOrAbove_iff (a := t), hcht]
    simp [hwb, hwt]
  have hel : d₂.IsElement w :=
    Option.isSome_of_mem (element?_eq_some_iff.mpr (by rw [hk₂, if_pos rfl]))
  have hb₂ : d₂.contains b := contains_of_mem_children (c := t) (by simp [hchb])
  have hbo : d₂.parent? b = none := by
    rw [hp₂, if_neg hpb.symm, if_neg hwb.symm, c₁.parent?, if_neg hbt,
      parent?_eq_none_of_dead hb]
  obtain ⟨a, d₃, h₃, had₂, hw₃, hk₃, hp₃, hc₃, hl₃⟩ := placeActions_spec hw₂ hel hb₂ hbo hbw
  have hdead₂ : a ≠ w ∧ d₁.contains a = false := by
    rw [← kind?_eq_none_iff, hk₂] at had₂
    split at had₂
    · simp at had₂
    split at had₂
    · simp at had₂
    · exact ⟨‹_›, kind?_eq_none_iff.mp had₂⟩
  obtain ⟨haw, had₁⟩ := hdead₂
  obtain ⟨hab, hat, had⟩ := c₁.dead had₁
  have hpa : pre ≠ a := ne_of_live_of_dead hlive had
  -- the mark
  have he₃ : d₃.element? pre = some (e.addClass wrapLinesClass) := by
    rw [element?_eq_some_iff, hk₃, if_neg hpa, hk₂, if_neg hpw, if_pos rfl]
  obtain ⟨d₄, h₄, s₄⟩ := addClass_setsKind hw₃ he₃ enhancedClass
  refine ⟨⟨code, pre, w, a, b, t⟩, d₄, ?_, rfl, rfl, s₄.wellFormed, ?_, ?_, fun y => ?_,
    fun y => ?_, fun y => ?_, ?_⟩
  · rw [wrapBlock_eq, apply_bind_ok h₁, apply_bind_ok h₂, apply_bind_ok h₃, h₄]
  · simp [Outfit.made, haw.symm, hwb, hwt, hab, hat, hbt]
  · simp [Outfit.made, hwd, had, hb, ht]
  · rw [s₄.kind?, hk₃, hk₂, c₁.kind?]
    grind [Outfit.made, Outfit.madeKind, marked]
  · rw [s₄.parent?, hp₃, hp₂, c₁.parent?]
    grind [Outfit.made, Outfit.madeParent]
  · have hold : ∀ y, y ≠ w → y ≠ b → d₂.children y =
        (d.children y).map fun x => if x = pre then w else x := by
      intro y hyw hyb
      rw [hc₂, if_neg hyw, c₁.children, if_neg hyb]
    have hw₂ : d₂.children w = [pre] := by rw [hc₂, if_pos rfl]
    rw [s₄.children, hc₃, hw₂]
    grind [Outfit.made, Outfit.madeChildren]
  · rw [s₄.listeners, hl₃, hl₂, c₁.listeners]

end CopyControl.Document
