import CopyControl.Proofs.Document.Delivery
import CopyControl.Proofs.Document.Order

/-!
Steps of a longer operation, and the trees that they grow.

A step either sets the kind of one node (`SetsKind`) or puts one node in another place (`Moves`).
Most of the time the nodes are new ones: then the steps grow trees beside the document, and what
stood in it stands as it did (`Beside`).

* §1 a node of another kind
* §2 a node in another place
* §3 new trees beside a document
-/

namespace CopyControl.Document

open Relation Edit

variable {d d' d'' : Document}

/-! ## §1 A node of another kind -/

/-- `d'` is `d` with a node `x` of kind `k`, which may be new. -/
structure SetsKind (d d' : Document) (x : NodeId) (k : NodeKind) : Prop where
  wellFormed : d'.WellFormed
  kind? : ∀ y, d'.kind? y = if y = x then some k else d.kind? y
  parent? : d'.parent? = d.parent?
  children : d'.children = d.children
  listeners : d'.listeners = d.listeners
  observers : d.SameObservers d'

theorem SetsKind.trans {x : NodeId} {k k' : NodeKind} (h : d.SetsKind d' x k)
    (h' : d'.SetsKind d'' x k') : d.SetsKind d'' x k' where
  wellFormed := h'.wellFormed
  kind? y := by
    rw [h'.kind?, h.kind?]
    split <;> rfl
  parent? := h'.parent?.trans h.parent?
  children := h'.children.trans h.children
  listeners := h'.listeners.trans h.listeners
  observers := h.observers.trans h'.observers

theorem SetsKind.element? {x : NodeId} {e : Element} (h : d.SetsKind d' x (.element e)) :
    d'.element? x = some e := by
  rw [element?_eq_some_iff, h.kind?, if_pos rfl]

theorem contains_eq_of_kind? {x : NodeId} (h : d'.kind? x = d.kind? x) :
    d'.contains x = d.contains x := by
  rw [← kind?_isSome, h, kind?_isSome]

theorem SetsKind.contains {x : NodeId} {k : NodeKind} (h : d.SetsKind d' x k) (y : NodeId) :
    d'.contains y ↔ y = x ∨ d.contains y := by
  rw [← kind?_isSome, ← kind?_isSome, h.kind?]
  by_cases hy : y = x <;> simp [hy]

theorem children_eq_nil_of_dead {x : NodeId} (h : d.contains x = false) : d.children x = [] := by
  simp [children, contains_eq_false_iff.mp h]

theorem setsKind_createNode (hw : d.WellFormed) {k : NodeKind}
    (hk : ∀ e, k = .element e → e.NoRepeats) :
    d.SetsKind (d.createNode k).2 (d.createNode k).1 k where
  wellFormed := wellFormed_createNode hw hk
  kind? := kind?_createNode hw.free k
  parent? := parent?_createNode hw.free k
  children := children_createNode hw.free k
  listeners := listeners_createNode d k
  observers := ⟨observers_createNode d k, mailboxes_createNode d k⟩

theorem createElement_setsKind (hw : d.WellFormed) (tag : String) :
    ∃ x d', (createElement tag).apply d = (.ok x, d') ∧ d.contains x = false ∧
      d.SetsKind d' x (.element (.ofTag tag)) := by
  refine ⟨_, _, rfl, contains_createNode_fst hw.free _, setsKind_createNode hw fun e he => ?_⟩
  rw [← NodeKind.element.inj he]
  exact Element.noRepeats_ofTag tag

theorem updateElement_setsKind (hw : d.WellFormed) {id : NodeId} {e : Element}
    (he : d.element? id = some e) {f : Element → Element} (hf : e.NoRepeats → (f e).NoRepeats) :
    ∃ d', (updateElement id f).apply d = (.ok (), d') ∧
      d.SetsKind d' id (.element (f e)) := by
  have hk := element?_eq_some_iff.mp he
  have hkind := kind?_updateNode d id (f := onElement f) (g := NodeKind.onElement f)
    (by intro n; rw [onElement_eq])
  refine ⟨_, updateElement_ok f (Option.isSome_of_mem he), ?_, fun y => ?_, ?_, ?_, ?_, ?_⟩
  · refine wellFormed_updateKind hw id (onElement_eq f) (fun k hk' => ?_) fun k e' hk' hke => ?_
    · rw [hk] at hk'
      obtain rfl := Option.some.inj hk'
      rfl
    · rw [hk] at hk'
      obtain rfl := Option.some.inj hk'
      rw [← NodeKind.element.inj hke]
      exact hf (hw.no_repeats id e he)
  · rw [hkind]
    split
    · rename_i hy
      rw [hy, hk]
      rfl
    · rfl
  · exact parent?_updateNode_of_keeps d id (by intro n; rw [onElement_eq])
  · exact children_updateNode_of_keeps d id (by intro n; rw [onElement_eq])
  · exact listeners_updateNode ..
  · exact sameObservers_updateNode ..

theorem addClass_setsKind (hw : d.WellFormed) {id : NodeId} {e : Element}
    (he : d.element? id = some e) (c : String) :
    ∃ d', (addClass id c).apply d = (.ok (), d') ∧
      d.SetsKind d' id (.element (e.addClass c)) :=
  updateElement_setsKind hw he fun h => Element.noRepeats_addClass h c

theorem ne_of_live_of_dead {x y : NodeId} (hx : d.contains x) (hy : d.contains y = false) :
    x ≠ y := by
  rintro rfl
  simp [hx] at hy

theorem SetsKind.atOrAbove_iff {x : NodeId} {k : NodeKind} (h : d.SetsKind d' x k)
    {a n : NodeId} : d'.AtOrAbove a n ↔ d.AtOrAbove a n := by
  rw [atOrAbove_congr h.parent?]

/-! ## §2 A node in another place -/

/-- `d'` is `d` with `c` put below `p`, in front of `r` or last. If `c` was a root, only `p` has
other children, and only who watches `p` has been told. -/
structure Moves (d d' : Document) (p c : NodeId) (r : Option NodeId) : Prop where
  wellFormed : d'.WellFormed
  kind? : d'.kind? = d.kind?
  parent? : ∀ y, d'.parent? y = if y = c then some p else d.parent? y
  children : ∀ y, d'.children y =
    if y = p then insertSibling c r ((d.children p).filter (· ≠ c))
    else (d.children y).filter (· ≠ c)
  listeners : d'.listeners = d.listeners
  untold : d.parent? c = none → ∀ o, (∀ g ∈ d.registrationsOf o, ¬ d'.AtOrAbove g.target p) →
    d.Untold d' o

theorem moves_move (hw : d.WellFormed) {p c : NodeId} (r : Option NodeId) (hp : d.IsElement p)
    (hc : d.contains c) (hcp : ¬ d.AtOrAbove c p) : d.Moves (d.move p c r) p c r where
  wellFormed := wellFormed_move hw r hp ((mayHold_iff hw).mpr ⟨hc, hcp⟩)
  kind? := kind?_move ..
  parent? := parent?_move r hc
  children := children_move hw (contains_of_isElement hp) c r
  listeners := listeners_move ..
  untold hroot o ho := by
    have hmove : d.move p c r = (d.attach p c r).notify (.ofAdded p c) := by
      simp only [Document.move, hroot]
    rw [hmove, atOrAbove_congr (parent?_notify ..)] at ho
    rw [hmove]
    refine (sameObservers_attach d p c r).untold.trans (untold_notify fun g hg => ?_)
    rw [registrationsOf_congr (sameObservers_attach d p c r)] at hg
    exact watches_eq_false (ho g hg)

theorem insertBefore_moves (hw : d.WellFormed) {p c : NodeId} {r : Option NodeId}
    (hp : d.IsElement p) (hc : d.contains c) (hcp : ¬ d.AtOrAbove c p)
    (hr : ∀ s, r = some s → d.parent? s = some p ∧ s ≠ c) :
    ∃ d', (insertBefore p c r).apply d = (.ok (), d') ∧ d.Moves d' p c r := by
  have hm : d.MayHold p c := (mayHold_iff hw).mpr ⟨hc, hcp⟩
  have hne : r ≠ some c := fun h => (hr c h).2 rfl
  refine ⟨d.move p c r, ?_, moves_move hw r hp hc hcp⟩
  rw [insertBefore_ok ⟨hp, hm, fun s hs => (hr s hs).1⟩, if_neg hne]

/-- Text is appended in two steps. -/
theorem appendText_steps (hw : d.WellFormed) {id : NodeId} (h : d.IsElement id) (s : String) :
    ∃ t d₁ d₂, (appendText id s).apply d = (.ok t, d₂) ∧ d.contains t = false ∧
      d.SetsKind d₁ t (.text s) ∧ d₁.Moves d₂ id t none := by
  have hk : d.SetsKind (d.newText s).2 (d.newText s).1 (.text s) := setsKind_createNode hw (by simp)
  have hdead : d.contains (d.newText s).1 = false := contains_createNode_fst hw.free _
  refine ⟨_, _, _, appendText_ok hw s h, hdead, hk, moves_move hk.wellFormed none
    (isElement_newText hw s h) ((hk.contains _).mpr (.inl rfl)) fun ha => ?_⟩
  have hlive := hw.contains_of_atOrAbove (hk.atOrAbove_iff.mp ha) (contains_of_isElement h)
  simp [hdead] at hlive

theorem insertSibling_none (c : NodeId) (l : List NodeId) :
    insertSibling c none l = l ++ [c] := by
  induction l with
  | nil => rfl
  | cons s l ih => simp [insertSibling, ih]

/-- A node without parent is no child. -/
theorem filter_children_of_orphan (hw : d.WellFormed) {c : NodeId} (h : d.parent? c = none)
    (y : NodeId) : (d.children y).filter (· ≠ c) = d.children y := by
  refine List.filter_eq_self.mpr fun x hx => ?_
  have : x ≠ c := by
    rintro rfl
    rw [← hw.parent_iff, h] at hx
    simp at hx
  simpa using this

/-- A move changes nothing below the node that is moved. -/
theorem Moves.atOrAbove_below {p c : NodeId} {r : Option NodeId} (h : d.Moves d' p c r)
    {n : NodeId} (hn : d'.AtOrAbove c n) : d.AtOrAbove c n := by
  induction hn using ReflTransGen.head_induction_on with
  | refl => exact .refl
  | head hl _ ih =>
    rename_i x y
    rw [Link, h.parent?] at hl
    split at hl
    · rename_i hx
      exact hx ▸ .refl
    · exact .head hl ih

/-- Nor does it change what the node is put below stands below. -/
theorem Moves.atOrAbove_above {p c : NodeId} {r : Option NodeId} (h : d.Moves d' p c r)
    (hcp : ¬ d.AtOrAbove c p) {a : NodeId} (ha : d'.AtOrAbove a p) : d.AtOrAbove a p := by
  induction ha with
  | refl => exact .refl
  | @tail b a _ hl ih =>
    have hb : b ≠ c := fun hb => hcp (hb ▸ ih)
    rw [Link, h.parent?, if_neg hb] at hl
    exact ih.tail hl

/-- Where a root goes, what is below it goes too. -/
theorem Moves.atOrAbove_of_root {p c : NodeId} {r : Option NodeId} (h : d.Moves d' p c r)
    (hc : d.parent? c = none) {a n : NodeId} (ha : d.AtOrAbove a n) : d'.AtOrAbove a n := by
  refine atOrAbove_mono (fun x y hl => ?_) ha
  have hne : x ≠ c := by
    rintro rfl
    simp [Link, hc] at hl
  rw [Link, h.parent?, if_neg hne]
  exact hl

/-! ## §3 New trees beside a document -/

/-- `d'` is `d` with new trees beside it. What was live stands as it stood, and who watches only
that has been told of nothing. What is new is in one of the trees; `ts` are their roots. -/
structure Beside (d d' : Document) (ts : List NodeId) : Prop where
  wellFormed : d'.WellFormed
  kind? : ∀ x, d.contains x → d'.kind? x = d.kind? x
  parent? : ∀ x, d.contains x → d'.parent? x = d.parent? x
  children : ∀ x, d.contains x → d'.children x = d.children x
  listeners : d'.listeners = d.listeners
  untold : ∀ o, (∀ g ∈ d.registrationsOf o, d.contains g.target) → d.Untold d' o
  nodup : ts.Nodup
  root : ∀ t ∈ ts, d.contains t = false ∧ d'.contains t ∧ d'.parent? t = none
  covered : ∀ x, d'.contains x → d.contains x ∨ ∃ t ∈ ts, d'.AtOrAbove t x

section Beside
variable {ts : List NodeId}

theorem Beside.refl (hw : d.WellFormed) : d.Beside d [] :=
  ⟨hw, fun _ _ => rfl, fun _ _ => rfl, fun _ _ => rfl, rfl, fun _ _ => ⟨rfl, rfl⟩,
    List.nodup_nil, by simp, fun _ hx => .inl hx⟩

theorem Beside.live (h : d.Beside d' ts) {x : NodeId} (hx : d.contains x) : d'.contains x := by
  rwa [contains_eq_of_kind? (h.kind? x hx)]

theorem Beside.reverse (h : d.Beside d' ts) : d.Beside d' ts.reverse :=
  { h with
    nodup := List.nodup_reverse.mpr h.nodup
    root := fun t ht => h.root t (List.mem_reverse.mp ht)
    covered := by simpa only [List.mem_reverse] using h.covered }

/-- What is above a node that was live was live. -/
theorem Beside.live_of_atOrAbove (hw : d.WellFormed) (h : d.Beside d' ts) {a x : NodeId}
    (hx : d.contains x) (ha : d'.AtOrAbove a x) : d.contains a := by
  induction ha with
  | refl => exact hx
  | tail _ hl ih =>
    rw [Link, h.parent? _ ih] at hl
    exact hw.contains_of_link hl

theorem Beside.isElement (h : d.Beside d' ts) {x : NodeId} (hx : d.IsElement x) :
    d'.IsElement x := by
  rwa [IsElement, element?, h.kind? x (contains_of_isElement hx)]

/-- A node that was live may hold the new trees. -/
theorem Beside.mayHold (hw : d.WellFormed) (h : d.Beside d' ts) {p t : NodeId} (hp : d.contains p)
    (ht : t ∈ ts) : d'.MayHold p t := by
  obtain ⟨hdead, hlive, -⟩ := h.root t ht
  refine (mayHold_iff h.wellFormed).mpr ⟨hlive, fun ha => ?_⟩
  simp [h.live_of_atOrAbove hw hp ha] at hdead

/-- What is in a new tree is new. -/
theorem Beside.dead_of_atOrAbove (hw : d.WellFormed) (h : d.Beside d' ts) {t x : NodeId}
    (ht : t ∈ ts) (hx : d'.AtOrAbove t x) : d.contains x = false := by
  rw [Bool.eq_false_iff]
  intro hlive
  exact absurd (h.live_of_atOrAbove hw hlive hx) (by simp [(h.root t ht).1])

/-- No node is in two of the trees. -/
theorem Beside.eq_of_atOrAbove (h : d.Beside d' ts) {t u x : NodeId} (ht : t ∈ ts) (hu : u ∈ ts)
    (htx : d'.AtOrAbove t x) (hux : d'.AtOrAbove u x) : t = u := by
  rcases atOrAbove_total htx hux with htu | hut
  · exact eq_of_atOrAbove_of_parent?_none htu (h.root u hu).2.2
  · exact (eq_of_atOrAbove_of_parent?_none hut (h.root t ht).2.2).symm

/-- A new node is one more root. -/
theorem Beside.add (h : d.Beside d' ts) {n : NodeId} {k : NodeKind} (hs : d'.SetsKind d'' n k)
    (hn : d'.contains n = false) : d.Beside d'' (n :: ts) where
  wellFormed := hs.wellFormed
  kind? x hx := by
    rw [hs.kind?, if_neg (ne_of_live_of_dead (h.live hx) hn), h.kind? x hx]
  parent? x hx := by rw [hs.parent?, h.parent? x hx]
  children x hx := by rw [hs.children, h.children x hx]
  listeners := hs.listeners.trans h.listeners
  untold o ho := (h.untold o ho).trans hs.observers.untold
  nodup := List.nodup_cons.mpr
    ⟨fun hm => absurd (h.root n hm).2.1 (by simp [hn]), h.nodup⟩
  root t ht := by
    rcases List.mem_cons.mp ht with rfl | ht
    · refine ⟨?_, (hs.contains t).mpr (.inl rfl), ?_⟩
      · rw [Bool.eq_false_iff]
        exact fun hlive => absurd (h.live hlive) (by simp [hn])
      · rw [hs.parent?, parent?_eq_none_of_dead hn]
    · obtain ⟨hdead, hlive, hp⟩ := h.root t ht
      exact ⟨hdead, (hs.contains t).mpr (.inr hlive), by rw [hs.parent?, hp]⟩
  covered x hx := by
    rcases (hs.contains x).mp hx with rfl | hx
    · exact .inr ⟨x, List.mem_cons_self, .refl⟩
    · refine (h.covered x hx).imp id fun ⟨t, ht, ha⟩ => ?_
      exact ⟨t, List.mem_cons_of_mem _ ht, hs.atOrAbove_iff.mpr ha⟩

/-- A new node gets other data. -/
theorem Beside.set (h : d.Beside d' ts) {n : NodeId} {k : NodeKind} (hs : d'.SetsKind d'' n k)
    (hn : d.contains n = false) (hlive : d'.contains n) : d.Beside d'' ts := by
  have hcontains : ∀ x, d''.contains x ↔ d'.contains x := fun x => by
    rw [hs.contains]
    exact ⟨fun hx => hx.elim (fun hx => hx ▸ hlive) id, .inr⟩
  refine ⟨hs.wellFormed, fun x hx => ?_, fun x hx => ?_, fun x hx => ?_, ?_, fun o ho => ?_,
    h.nodup, fun t ht => ?_, fun x hx => ?_⟩
  · rw [hs.kind?, if_neg (ne_of_live_of_dead hx hn), h.kind? x hx]
  · rw [hs.parent?, h.parent? x hx]
  · rw [hs.children, h.children x hx]
  · exact hs.listeners.trans h.listeners
  · exact (h.untold o ho).trans hs.observers.untold
  · obtain ⟨hdead, ht, hp⟩ := h.root t ht
    exact ⟨hdead, (hcontains t).mpr ht, by rw [hs.parent?, hp]⟩
  · simpa only [hs.atOrAbove_iff] using h.covered x ((hcontains x).mp hx)

/-- What is above a new node is new. -/
theorem Beside.dead_of_above_new (hw : d.WellFormed) (h : d.Beside d' ts) {a x : NodeId}
    (hx : d'.contains x) (hxn : d.contains x = false) (ha : d'.AtOrAbove a x) :
    d.contains a = false := by
  rcases h.covered x hx with hlive | ⟨t, ht, htx⟩
  · simp [hxn] at hlive
  rcases atOrAbove_total htx ha with hta | hat
  · exact h.dead_of_atOrAbove hw ht hta
  · rw [eq_of_atOrAbove_of_parent?_none hat (h.root t ht).2.2]
    exact (h.root t ht).1

/-- A root put below a node of another new tree is a root no more. -/
theorem Beside.move (hw : d.WellFormed) (h : d.Beside d' ts) {p c : NodeId}
    (hm : d'.Moves d'' p c none) (hc : c ∈ ts) (hp : d'.contains p) (hpn : d.contains p = false)
    (hcp : ¬ d'.AtOrAbove c p) : d.Beside d'' (ts.erase c) := by
  obtain ⟨hcn, -, hcr⟩ := h.root c hc
  refine ⟨hm.wellFormed, fun x hx => ?_, fun x hx => ?_, fun x hx => ?_, ?_, fun o ho => ?_,
    h.nodup.erase c, fun t ht => ?_, fun x hx => ?_⟩
  · rw [hm.kind?, h.kind? x hx]
  · rw [hm.parent?, if_neg (ne_of_live_of_dead hx hcn), h.parent? x hx]
  · rw [hm.children, if_neg (ne_of_live_of_dead hx hpn),
      filter_children_of_orphan h.wellFormed hcr, h.children x hx]
  · exact hm.listeners.trans h.listeners
  · have hold := h.untold o ho
    refine hold.trans (hm.untold hcr o fun g hg ha => ?_)
    rw [hold.registrations] at hg
    have hdead := h.dead_of_above_new hw hp hpn (hm.atOrAbove_above hcp ha)
    simp [ho g hg] at hdead
  · obtain ⟨hne, ht⟩ := (h.nodup.mem_erase_iff).mp ht
    obtain ⟨hdead, hlive, hr⟩ := h.root t ht
    refine ⟨hdead, ?_, by rw [hm.parent?, if_neg hne, hr]⟩
    rwa [contains_eq_of_kind? (congrFun hm.kind? t)]
  · rw [contains_eq_of_kind? (congrFun hm.kind? x)] at hx
    refine (h.covered x hx).imp id fun ⟨t, ht, ha⟩ => ?_
    have hkeep := fun {a n} => hm.atOrAbove_of_root hcr (a := a) (n := n)
    by_cases htc : t = c
    · -- the tree of `p` is the one that `x` is in now
      subst htc
      rcases h.covered p hp with hlive | ⟨u, hu, hup⟩
      · simp [hpn] at hlive
      have hut : u ≠ t := by
        rintro rfl
        exact hcp hup
      have hl : d''.Link t p := by rw [Link, hm.parent?, if_pos rfl]
      exact ⟨u, (h.nodup.mem_erase_iff).mpr ⟨hut, hu⟩,
        ((hkeep ha).tail hl).trans (hkeep hup)⟩
    · exact ⟨t, (h.nodup.mem_erase_iff).mpr ⟨htc, ht⟩, hkeep ha⟩

end Beside

end CopyControl.Document
