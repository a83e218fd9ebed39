import CopyControl.Proofs.Document.Rooted
import CopyControl.Proofs.Markdown.Fresh

/-!
What building leaves loose, and which classes it gives.

The only classes that come from Markdown are those that name the language of a code block
(`unadorned_sketch`); so nothing that is built from Markdown is a control, or is marked as having
one. On a fresh page nothing is loose (`buildPage_whole`): each element is put into the head, and
each node of the fragment into the body, before the next one is taken.

* §1 classes that come from Markdown
* §2 operations that succeed
* §3 pages under construction
* §4 the whole page
-/

namespace CopyControl

open Document Markdown

/-! ## §1 Classes that come from Markdown -/

/-- The only classes are names of languages. -/
def Element.Unadorned (e : Element) : Prop :=
  ∀ c ∈ e.classes, ∃ info, languageClass? info = some c

def NodeKind.Unadorned (k : NodeKind) : Prop :=
  ∀ e, k = .element e → e.Unadorned

def Tree.Unadorned (t : Tree) : Prop :=
  ∀ k ∈ t.kinds, k.Unadorned

namespace Element

variable {e : Element}

theorem unadorned_ofTag (tag : String) : (Element.ofTag tag).Unadorned := by
  simp [Unadorned, ofTag]

theorem Unadorned.setAttribute (h : e.Unadorned) (name value : String) :
    (e.setAttribute name value).Unadorned := h

end Element

namespace Markdown

open Element

theorem unadorned_codeElement (info : Option String) : (codeElement info).Unadorned := by
  unfold codeElement
  split
  · next c hc =>
    intro c' hc'
    rcases mem_classes_addClass.mp hc' with h | rfl
    · exact unadorned_ofTag "code" c' h
    · exact ⟨info, hc⟩
  · exact unadorned_ofTag "code"

theorem unadorned_titled {e : Element} (h : e.Unadorned) (title : String) :
    (titled title e).Unadorned := by
  unfold titled
  split
  · exact h
  · exact h.setAttribute _ _

theorem unadorned_orderedElement (start : Nat) : (orderedElement start).Unadorned := by
  unfold orderedElement
  split
  · exact (unadorned_ofTag "ol").setAttribute _ _
  · exact unadorned_ofTag "ol"

theorem unadorned_checkboxElement (checked : Bool) : (checkboxElement checked).Unadorned := by
  cases checked <;> exact unadorned_ofTag "input"

theorem unadorned_elements (tag : Tag) (inTableHead : Bool) :
    ∀ e ∈ tag.elements inTableHead, e.Unadorned := by
  have single : ∀ {e : Element}, e.Unadorned → ∀ f ∈ [e], f.Unadorned := fun he f hf =>
    List.mem_singleton.mp hf ▸ he
  have pair : ∀ {e e' : Element}, e.Unadorned → e'.Unadorned → ∀ f ∈ [e, e'], f.Unadorned :=
    fun he he' => List.forall_mem_cons.mpr ⟨he, single he'⟩
  cases tag with
  | codeBlock info => exact pair (unadorned_ofTag _) (unadorned_codeElement info)
  | tableHead => exact pair (unadorned_ofTag _) (unadorned_ofTag _)
  | list start =>
    cases start with
    | none => exact single (unadorned_ofTag _)
    | some n => exact single (unadorned_orderedElement n)
  | link destination title =>
    exact single (unadorned_titled ((unadorned_ofTag "a").setAttribute _ _) title)
  | image destination title =>
    refine single (unadorned_titled ?_ title)
    exact ((unadorned_ofTag "img").setAttribute _ _).setAttribute _ _
  | htmlBlock => simp [Tag.elements]
  | _ => exact single (unadorned_ofTag _)

theorem unadorned_leaf {k : NodeKind} (h : k.Unadorned) : (Tree.node default k []).Unadorned := by
  simpa [Tree.Unadorned, Tree.kinds, Tree.kindsOf] using h

theorem mem_kindsOf {k : NodeKind} {ts : List Tree} :
    k ∈ Tree.kindsOf ts ↔ ∃ t ∈ ts, k ∈ t.kinds := by
  induction ts with
  | nil => simp [Tree.kindsOf]
  | cons t ts ih => simp [Tree.kindsOf, ih]

theorem unadorned_node {n : NodeId} {k : NodeKind} {ts : List Tree} (hk : k.Unadorned)
    (hts : ∀ t ∈ ts, t.Unadorned) : (Tree.node n k ts).Unadorned := fun k' hk' => by
  rcases List.mem_cons.mp hk' with rfl | hk'
  · exact hk
  · obtain ⟨t, ht, hk'⟩ := mem_kindsOf.mp hk'
    exact hts t ht k' hk'

theorem unadorned_element {e : Element} (h : e.Unadorned) : (NodeKind.element e).Unadorned := by
  rintro _ ⟨rfl⟩
  exact h

theorem unadorned_text (s : String) : (NodeKind.text s).Unadorned := nofun

theorem unadorned_raw (markup : String) : (NodeKind.raw markup).Unadorned := nofun

namespace Sketch

variable {s : Sketch}

/-- All that is drawn so far, open or finished, is unadorned. -/
structure Unadorned (s : Sketch) : Prop where
  stack : ∀ f ∈ s.stack, f.element.Unadorned ∧ ∀ t ∈ f.done, t.Unadorned
  topLevel : ∀ t ∈ s.topLevel, t.Unadorned

theorem Unadorned.place (h : s.Unadorned) {t : Tree} (ht : t.Unadorned) :
    (s.place t).Unadorned := by
  obtain ⟨stack, opened, top, head⟩ := s
  cases stack with
  | nil => exact ⟨h.stack, List.forall_mem_cons.mpr ⟨ht, h.topLevel⟩⟩
  | cons f rest =>
    obtain ⟨⟨he, hdone⟩, hrest⟩ := List.forall_mem_cons.mp h.stack
    exact ⟨List.forall_mem_cons.mpr ⟨⟨he, List.forall_mem_cons.mpr ⟨ht, hdone⟩⟩, hrest⟩, h.topLevel⟩

theorem Unadorned.push (h : s.Unadorned) {e : Element} (he : e.Unadorned) : (s.push e).Unadorned :=
  ⟨List.forall_mem_cons.mpr ⟨⟨he, by simp⟩, h.stack⟩, h.topLevel⟩

theorem Unadorned.pop (h : s.Unadorned) : s.pop.Unadorned := by
  obtain ⟨stack, opened, top, head⟩ := s
  cases stack with
  | nil => exact h
  | cons f rest =>
    obtain ⟨⟨he, hdone⟩, hrest⟩ := List.forall_mem_cons.mp h.stack
    have hrest' : Unadorned ⟨rest, opened, top, head⟩ := ⟨hrest, h.topLevel⟩
    exact hrest'.place (unadorned_node (unadorned_element he) (by simpa using hdone))

theorem Unadorned.popMany (h : s.Unadorned) (n : Nat) : (popMany n s).Unadorned := by
  induction n generalizing s with
  | zero => exact h
  | succ n ih => exact ih h.pop

theorem Unadorned.foldl_push (h : s.Unadorned) {es : List Element} (hes : ∀ e ∈ es, e.Unadorned) :
    (es.foldl Sketch.push s).Unadorned := by
  induction es generalizing s with
  | nil => exact h
  | cons e es ih =>
    obtain ⟨he, hes⟩ := List.forall_mem_cons.mp hes
    exact ih (h.push he) hes

theorem Unadorned.addText (h : s.Unadorned) (text : String) : (s.addText text).Unadorned := by
  have place := h.place (unadorned_leaf (unadorned_text text))
  obtain ⟨stack, opened, top, head⟩ := s
  cases stack with
  | nil => exact place
  | cons f rest =>
    obtain ⟨⟨he, hdone⟩, hrest⟩ := List.forall_mem_cons.mp h.stack
    unfold Sketch.addText
    dsimp only
    split
    · exact ⟨List.forall_mem_cons.mpr ⟨⟨he.setAttribute _ _, hdone⟩, hrest⟩, h.topLevel⟩
    · exact place

theorem Unadorned.handle (h : s.Unadorned) (e : Event) : (s.handle e).Unadorned := by
  have leaf : ∀ {k : NodeKind}, k.Unadorned → (s.place (.node default k [])).Unadorned :=
    fun hk => h.place (unadorned_leaf hk)
  cases e with
  | start tag =>
    obtain ⟨hstack, htop⟩ := h.foldl_push (unadorned_elements tag s.inTableHead)
    exact ⟨hstack, htop⟩
  | stop tag =>
    obtain ⟨hstack, htop⟩ := Unadorned.popMany
      (s := { s with inTableHead := s.inTableHead && tag != .tableHead }) ⟨h.stack, h.topLevel⟩
      (s.opened.headD 0)
    exact ⟨hstack, htop⟩
  | text text => exact h.addText text
  | code text =>
    refine h.place (unadorned_node (unadorned_element (unadorned_ofTag "code")) ?_)
    simpa using unadorned_leaf (unadorned_text text)
  | html markup | inlineHtml markup => exact leaf (unadorned_raw markup)
  | softBreak => exact leaf (unadorned_text _)
  | hardBreak | rule => exact leaf (unadorned_element (unadorned_ofTag _))
  | taskMarker checked => exact leaf (unadorned_element (unadorned_checkboxElement checked))
  | unsupported => exact h

end Sketch

/-- The only classes that come from Markdown name the languages of code blocks. -/
theorem unadorned_sketch (events : List Event) : ∀ t ∈ sketch events, t.Unadorned := by
  have hfold : ∀ (es : List Event) (s : Sketch), s.Unadorned →
      (es.foldl Sketch.handle s).Unadorned := by
    intro es
    induction es with
    | nil => exact fun _ h => h
    | cons e es ih => exact fun s h => ih _ (h.handle e)
  have hstart : Sketch.Unadorned .start := ⟨by simp [Sketch.start], by simp [Sketch.start]⟩
  intro t ht
  exact ((hfold events .start hstart).popMany _).topLevel t (List.mem_reverse.mp ht)

end Markdown

/-! ## §2 Operations that succeed -/

namespace Edit

variable {α β : Type} {d : Document}

/-- If the operation succeeds, `P` holds of its result and of the document afterwards. -/
def Ensures (e : Edit α) (d : Document) (P : α → Document → Prop) : Prop :=
  ∀ a d', e.apply d = (.ok a, d') → P a d'

theorem ensures_pure {a : α} {P : α → Document → Prop} (h : P a d) :
    (pure a : Edit α).Ensures d P := by
  rintro _ _ ⟨⟩
  exact h

theorem Ensures.bind {e : Edit α} {f : α → Edit β} {P : α → Document → Prop}
    {Q : β → Document → Prop} (h : e.Ensures d P) (hf : ∀ a d', P a d' → (f a).Ensures d' Q) :
    (e >>= f).Ensures d Q := by
  intro b d'' hb
  rw [apply_bind] at hb
  rcases he : e.apply d with ⟨_ | a, d'⟩
  · simp [he] at hb
  · rw [he] at hb
    exact hf a d' (h a d' he) b d'' hb

theorem Gives.ensures {e : Edit α} {P : α → Document → Prop} (h : e.Gives d P) : e.Ensures d P := by
  obtain ⟨a, d', ha, hp⟩ := h
  intro b d'' hb
  rw [ha] at hb
  obtain ⟨⟨rfl⟩, rfl⟩ := Prod.mk.inj hb
  exact hp

theorem Fails.ensures {e : Edit α} (h : e.Fails d) (P : α → Document → Prop) : e.Ensures d P := by
  obtain ⟨x, hx⟩ := h
  intro b d'' hb
  rw [hx] at hb
  simp at hb

end Edit

/-! ## §3 Pages under construction -/

namespace Document

open Edit Relation

variable {d d' : Document} {ts : List NodeId} {x : NodeId} {root : NodeId}

/-- Nothing is loose but the root and `ts`, and all classes come from Markdown. -/
structure Raised (d : Document) (root : NodeId) (ts : List NodeId) : Prop where
  wellFormed : d.WellFormed
  root : d.root = root
  loose : d.Loose ts
  unadorned : ∀ x k, d.kind? x = some k → k.Unadorned

theorem Raised.set (h : d.Raised root ts) {k : NodeKind} (hs : d.SetsKind d' x k) (hk : k.Unadorned)
    (ha : d'.anchors = d.anchors) : d'.Raised root (x :: ts) where
  wellFormed := hs.wellFormed
  root := (congrArg (·.1.1) ha).trans h.root
  loose := h.loose.set hs (congrArg (·.1.1) ha)
  unadorned y k' hy := by
    rw [hs.kind?] at hy
    split at hy
    · exact Option.some.inj hy ▸ hk
    · exact h.unadorned y k' hy

/-- A node that has been loose gets other data. -/
theorem Raised.of_cons (h : d.Raised root (x :: ts)) (hx : x ∈ ts) : d.Raised root ts :=
  { h with
    loose := fun y hy hp => (h.loose y hy hp).imp id fun hm => by
      rcases List.mem_cons.mp hm with rfl | hm
      · exact hx
      · exact hm }

theorem Raised.createElement (h : d.Raised root ts) (tag : String) :
    (createElement tag).Ensures d fun x d' => d'.Raised root (x :: ts) := by
  obtain ⟨x, d', heq, -, hs⟩ := createElement_setsKind h.wellFormed tag
  have ha := (constructive_createElement tag).onlyChanges.anchors_eq h.wellFormed heq
  exact Gives.ensures ⟨x, d', heq,
    h.set hs (unadorned_element (Element.unadorned_ofTag tag)) ha⟩

theorem Raised.setAttribute (h : d.Raised root ts) (hx : x ∈ ts) (name value : String) :
    (setAttribute x name value).Ensures d fun _ d' => d'.Raised root ts := by
  by_cases hel : d.IsElement x
  swap
  · exact (updateElement_fails _ hel).ensures _
  obtain ⟨e, he⟩ := Option.isSome_iff_exists.mp hel
  obtain ⟨d', heq, hs⟩ := updateElement_setsKind h.wellFormed he
    (f := (·.setAttribute name value)) fun hr => Element.noRepeats_setAttribute hr name value
  have ha := (constructive_setAttribute x name value).onlyChanges.anchors_eq h.wellFormed heq
  have hun := h.unadorned x _ (element?_eq_some_iff.mp he) e rfl
  exact Gives.ensures ⟨(), d', heq,
    (h.set hs (unadorned_element (hun.setAttribute name value)) ha).of_cons hx⟩

theorem Raised.setAttributes (h : d.Raised root ts) (hx : x ∈ ts)
    (attributes : List (String × String)) :
    (attributes.forM fun (name, value) => Document.setAttribute x name value).Ensures d
      fun _ d' => d'.Raised root ts := by
  induction attributes generalizing d with
  | nil => exact ensures_pure h
  | cons a attributes ih => exact (h.setAttribute hx a.1 a.2).bind fun _ _ h => ih h

theorem Raised.appendChild (h : d.Raised root (x :: ts)) (p : NodeId) :
    (appendChild p x).Ensures d fun _ d' => d'.Raised root ts := by
  by_cases hi : d.Insertable p x none
  swap
  · exact (insertBefore_fails hi).ensures _
  obtain ⟨hlive, hnot⟩ := (mayHold_iff h.wellFormed).mp hi.mayHold
  obtain ⟨d', heq, hm⟩ :=
    insertBefore_moves h.wellFormed (r := none) hi.element hlive hnot (by simp)
  have ha := (constructive_insertBefore p x none).onlyChanges.anchors_eq h.wellFormed heq
  refine Gives.ensures ⟨(), d', heq, hm.wellFormed, (congrArg (·.1.1) ha).trans h.root,
    h.loose.move hm (congrArg (·.1.1) ha), fun y k hy => ?_⟩
  rw [hm.kind?] at hy
  exact h.unadorned y k hy

theorem Raised.createText (h : d.Raised root ts) (s : String) :
    (createText s).Ensures d fun x d' => d'.Raised root (x :: ts) := by
  have hs : d.SetsKind (d.newText s).2 (d.newText s).1 (.text s) :=
    setsKind_createNode h.wellFormed (by simp)
  exact Gives.ensures ⟨_, _, rfl, h.set hs (unadorned_text s) (anchors_createNode d _)⟩

theorem Raised.appendText (h : d.Raised root ts) (x : NodeId) (s : String) :
    (appendText x s).Ensures d fun _ d' => d'.Raised root ts := by
  by_cases hel : d.IsElement x
  swap
  · exact ((ensureElement_fails hel).bind _).ensures _
  refine (gives_of_ok (ensureElement_ok hel)).ensures.bind ?_
  rintro _ _ ⟨-, rfl⟩
  refine (h.createText s).bind fun t d₁ h₁ => ?_
  exact (h₁.appendChild x).bind fun _ _ h₂ => ensures_pure h₂

end Document

/-! ## §4 The whole page -/

namespace Markdown

open Edit

variable {d d' : Document} {root : NodeId}

theorem addToHead_raised (h : d.Raised root []) (tag : String)
    (attributes : List (String × String)) :
    (addToHead tag attributes).Ensures d fun _ d' => d'.Raised root [] := by
  refine (h.createElement tag).bind fun x d₁ h₁ => ?_
  refine (h₁.setAttributes List.mem_cons_self attributes).bind fun _ d₂ h₂ => ?_
  refine (gives_of_ok (apply_get d₂)).ensures.bind ?_
  rintro _ _ ⟨rfl, rfl⟩
  exact h₂.appendChild _

theorem fillBody_raised {nodes : List NodeId} (h : d.Raised root nodes) :
    (fillBody nodes).Ensures d fun _ d' => d'.Raised root [] := by
  induction nodes generalizing d with
  | nil => exact ensures_pure h
  | cons n nodes ih =>
    have hone : Ensures (do appendChild (← get).body n) d fun _ d' => d'.Raised root nodes := by
      refine (gives_of_ok (apply_get d)).ensures.bind ?_
      rintro _ _ ⟨rfl, rfl⟩
      exact h.appendChild _
    exact hone.bind fun _ _ h₁ => ih h₁

theorem addTitle_raised (h : d.Raised root []) :
    addTitle.Ensures d fun _ d' => d'.Raised root [] := by
  refine (gives_of_ok (apply_get d)).ensures.bind ?_
  rintro _ _ ⟨rfl, rfl⟩
  split
  · refine (h.createElement "title").bind fun x d₁ h₁ => ?_
    exact (h₁.appendText x _).bind fun _ d₂ h₂ => h₂.appendChild _
  · exact ensures_pure h

theorem buildFragment_raised (h : d.Raised root []) (events : List Event) :
    (buildFragment events).Ensures d fun nodes d' => d'.Raised root nodes := by
  have hw := h.wellFormed
  obtain ⟨nodes, d', heq, hbeside, hsketch⟩ := buildFragment_sketch hw events
  have ha := (constructive_buildFragment events).onlyChanges.anchors_eq hw heq
  have hroot : d'.root = d.root := congrArg (·.1.1) ha
  refine Gives.ensures ⟨nodes, d', heq, hbeside.wellFormed, hroot.trans h.root,
    (rooted_iff_loose_nil.mpr h.loose).beside hbeside hroot, fun x k hk => ?_⟩
  -- a node is as it was, or it is drawn in one of the trees
  rcases hbeside.covered x (contains_of_kind? hk) with hx | ⟨n, hn, hnx⟩
  · exact h.unadorned x k (hbeside.kind? x hx ▸ hk)
  · obtain ⟨t, ht, hshape⟩ := hsketch.shape?_of_mem hn
    have hmem : some k ∈ t.kinds.map some := by
      rw [← map_kind?_descendants hbeside.wellFormed hshape, ← hk]
      refine List.mem_map_of_mem (hbeside.wellFormed.mem_descendants_iff.mpr ⟨?_, hnx⟩)
      exact (hbeside.root n hn).2.1
    obtain ⟨k', hk', heq⟩ := List.mem_map.mp hmem
    exact Option.some.inj heq ▸ unadorned_sketch events t ht k' hk'

theorem raised_new : new.Raised new.root [] := by
  refine ⟨wellFormed_new, rfl, fun x hx hp => ?_, fun x k hk => ?_⟩
  · rw [contains, node?_new] at hx
    rw [parent?, node?_new] at hp
    split_ifs at hx hp with hroot
    · exact .inl hroot
    all_goals simp at hx hp
  · rw [kind?, node?_new] at hk
    split_ifs at hk
    · exact Option.some.inj hk ▸ unadorned_element (Element.unadorned_ofTag "html")
    · exact Option.some.inj hk ▸ unadorned_element (Element.unadorned_ofTag "head")
    · exact Option.some.inj hk ▸ unadorned_element (Element.unadorned_ofTag "body")
    · simp at hk

/-- A page as it is built is in one piece, and nothing on it looks like a control or has the mark of
an enhanced block. -/
theorem buildPage_whole {events : List Event} {options : PageOptions}
    (hd : buildPage events options = .ok d) : d.Raised new.root [] := by
  have hfill : (fillPage events options).Ensures new fun _ d => d.Raised new.root [] := by
    have rest : ∀ {d : Document}, d.Raised new.root [] →
        Ensures (do fillBody (← buildFragment events); addTitle) d
          fun _ d' => d'.Raised new.root [] := fun h =>
      (buildFragment_raised h events).bind fun _ _ h₁ =>
        (fillBody_raised h₁).bind fun _ _ h₂ => addTitle_raised h₂
    refine (addToHead_raised raised_new "meta" _).bind fun _ d₁ h₁ => ?_
    cases options.stylesheet with
    | none => exact rest h₁
    | some href => exact (addToHead_raised h₁ "link" _).bind fun _ d₂ h₂ => rest h₂
  rcases he : (fillPage events options).apply .new with ⟨_ | u, d'⟩
  · simp [buildPage, he] at hd
  · obtain rfl : d' = d := by simpa [buildPage, he] using hd
    exact hfill _ _ he

end Markdown

end CopyControl
