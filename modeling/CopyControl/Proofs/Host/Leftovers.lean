import CopyControl.Markdown.Reader
import CopyControl.Proofs.Document.Beside
import CopyControl.Proofs.Document.Spoken
import CopyControl.Proofs.Host.Aside

/-!
What a reload that fails leaves behind.

A new page is built before anybody looks whether there is a body to put it into. If there is none,
the reload fails, and all that has been built stays beside the document, under handles that nobody
has been told. Whatever was there before is as it was (`LeftBehind`), but what is there has grown,
and reloads that fail one after the other add up (`leftBehind_of_refused`). Only a page with nothing
on it leaves no trace.

* §1 pages with nothing on them
* §2 when a new body is refused
* §3 what is left
* §4 reload after reload
-/

namespace CopyControl

open Document Edit

namespace Markdown

/-! ## §1 Pages with nothing on them -/

/-- No node is made for the event. -/
def Event.IsSilent : Event → Prop
  | .start .htmlBlock | .stop _ | .unsupported => True
  | _ => False

namespace Sketch

variable {s : Sketch}

/-- Nothing has been drawn so far. -/
def Blank (s : Sketch) : Prop :=
  s.stack = [] ∧ s.topLevel = []

theorem not_blank_place (s : Sketch) (t : Tree) : ¬ (s.place t).Blank := by
  obtain ⟨stack, opened, top, head⟩ := s
  cases stack <;> simp [Blank, place]

theorem not_blank_push (s : Sketch) (e : Element) : ¬ (s.push e).Blank := by
  simp [Blank, push]

theorem not_blank_addText (s : Sketch) (text : String) : ¬ (s.addText text).Blank := by
  have place := s.not_blank_place (.node default (.text text) [])
  obtain ⟨stack, opened, top, head⟩ := s
  cases stack with
  | nil => exact place
  | cons f rest =>
    unfold addText
    dsimp only
    split
    · simp [Blank]
    · exact place

theorem blank_of_foldl_push {es : List Element} (h : (es.foldl push s).Blank) :
    es = [] ∧ s.Blank := by
  induction es generalizing s with
  | nil => exact ⟨rfl, h⟩
  | cons e es ih => exact absurd (ih h).2 (s.not_blank_push e)

/-- What is closed is not rubbed out. -/
theorem Blank.of_pop (h : s.pop.Blank) : s.Blank := by
  obtain ⟨stack, opened, top, head⟩ := s
  cases stack with
  | nil => exact h
  | cons f rest => exact absurd h (not_blank_place _ _)

theorem Blank.of_popMany {n : Nat} (h : (popMany n s).Blank) : s.Blank := by
  induction n generalizing s with
  | zero => exact h
  | succ n ih => exact (ih h).of_pop

theorem length_stack_popMany (n : Nat) (s : Sketch) :
    (popMany n s).stack.length = s.stack.length - n := by
  induction n generalizing s with
  | zero => rfl
  | succ n ih =>
    rw [popMany, ih]
    obtain ⟨stack, opened, top, head⟩ := s
    rcases stack with _ | ⟨f, _ | ⟨g, rest⟩⟩ <;> simp [pop, place]

theorem blank_of_finish_eq_nil (h : s.finish = []) : s.Blank := by
  refine Blank.of_popMany (n := s.stack.length) ⟨?_, List.reverse_eq_nil_iff.mp h⟩
  rw [← List.length_eq_zero_iff, length_stack_popMany, Nat.sub_self]

/-- Whatever is not silent is drawn. -/
theorem Blank.of_handle {e : Event} (h : (s.handle e).Blank) : s.Blank ∧ e.IsSilent := by
  cases e with
  | start tag =>
    have hpush : ((tag.elements s.inTableHead).foldl push s).Blank := h
    obtain ⟨hnone, hs⟩ := blank_of_foldl_push hpush
    refine ⟨hs, ?_⟩
    cases tag with
    | htmlBlock => trivial
    | list start => cases start <;> simp [Tag.elements] at hnone
    | _ => simp [Tag.elements] at hnone
  | stop tag =>
    have hs :=
      Blank.of_popMany (s := { s with inTableHead := s.inTableHead && tag != .tableHead }) h
    exact ⟨hs, trivial⟩
  | text text => exact absurd h (s.not_blank_addText text)
  | unsupported => exact ⟨h, trivial⟩
  | _ => exact absurd h (s.not_blank_place _)

end Sketch

/-- If nothing comes of a page, then every event of it is silent. -/
theorem isSilent_of_sketch_eq_nil {events : List Event} (h : sketch events = []) :
    ∀ e ∈ events, e.IsSilent := by
  have hblank := Sketch.blank_of_finish_eq_nil h
  clear h
  induction events using List.reverseRecOn with
  | nil => simp
  | append_singleton events e ih =>
    rw [List.foldl_append] at hblank
    obtain ⟨hbefore, he⟩ := Sketch.Blank.of_handle hblank
    exact List.forall_mem_append.mpr ⟨ih hbefore, by simpa using he⟩

theorem apply_handle_of_isSilent (b : Builder) {e : Event} (he : e.IsSilent) (d : Document) :
    ∃ b', (b.handle e).apply d = (.ok b', d) := by
  cases e with
  | start tag =>
    cases tag with
    | htmlBlock => exact ⟨_, rfl⟩
    | _ => exact he.elim
  | stop tag => exact ⟨_, rfl⟩
  | unsupported => exact ⟨_, rfl⟩
  | _ => exact he.elim

/-- The builder does nothing at all for a page of silent events. -/
theorem apply_handleAll_of_isSilent (b : Builder) {events : List Event}
    (he : ∀ e ∈ events, e.IsSilent) (d : Document) :
    ∃ b', (b.handleAll events).apply d = (.ok b', d) := by
  induction events generalizing b with
  | nil => exact ⟨b, rfl⟩
  | cons e events ih =>
    obtain ⟨hfirst, hrest⟩ := List.forall_mem_cons.mp he
    obtain ⟨b', hb'⟩ := apply_handle_of_isSilent b hfirst d
    rw [Builder.handleAll, List.foldlM_cons, apply_bind_ok hb']
    exact ih b' hrest

theorem buildFragment_of_sketch_eq_nil {events : List Event} (h : sketch events = [])
    (d : Document) : ((buildFragment events).apply d).2 = d := by
  obtain ⟨b, hb⟩ := apply_handleAll_of_isSilent .start (isSilent_of_sketch_eq_nil h) d
  rw [buildFragment, apply_bind_ok hb]
  rfl

/-! ## §2 When a new body is refused -/

variable {d d' d'' : Document} {ts us : List NodeId} {trees trees' : List Tree}
  {events : List Event}

/-- What is no element before does not become one that may hold the new trees. -/
theorem not_mayHold_of_beside (hb : d.Beside d' ts) {x : NodeId} (hx : ¬ d.IsElement x) :
    ¬ (d'.IsElement x ∧ ∀ t ∈ ts, d'.MayHold x t) := by
  rintro ⟨hel, hts⟩
  rcases hb.covered x (contains_of_isElement hel) with hlive | ⟨t, ht, htx⟩
  · rw [IsElement, element?, hb.kind? x hlive] at hel
    exact hx hel
  · exact ((mayHold_iff hb.wellFormed).mp (hts t ht)).2 htx

/-- All that has been done to a document is that the trees have been made beside it, at `ts`. -/
structure Adjoins (d d' : Document) (ts : List NodeId) (trees : List Tree) : Prop where
  beside : d.Beside d' ts
  drawn : d'.Depicts ts trees
  freesNothing : d.FreesNothing d'
  body : d'.body = d.body

theorem adjoins_buildFragment (hw : d.WellFormed) (events : List Event) :
    ∃ ts d', (buildFragment events).apply d = (.ok ts, d') ∧ Adjoins d d' ts (sketch events) := by
  obtain ⟨ts, d', heq, hb, hd⟩ := buildFragment_sketch hw events
  have hc := constructive_buildFragment events
  have hadds := hc.adds d hw
  have hanchors := hc.onlyChanges.anchors_eq hw heq
  rw [heq] at hadds
  exact ⟨ts, d', heq, hb, hd, freesNothing_of_adds hw hadds, congrArg (·.1.2) hanchors⟩

/-- Without a body the page is built, and then there is nowhere to put it. -/
theorem replaceBody_of_not_isElement (hw : d.WellFormed) (hb : ¬ d.IsElement d.body)
    (events : List Event) :
    ∃ x ts d', (replaceBody events).apply d = (.error x, d') ∧
      (buildFragment events).apply d = (.ok ts, d') ∧ Adjoins d d' ts (sketch events) := by
  obtain ⟨ts, d', heq, h⟩ := adjoins_buildFragment hw events
  obtain ⟨x, hx⟩ :=
    (replaceChildren_fails (not_mayHold_of_beside h.beside hb)).bind fun _ => pure ts.length
  refine ⟨x, ts, d', ?_, heq, h⟩
  rw [replaceBody, apply_bind_ok heq, apply_get_bind, h.body]
  exact hx

theorem failure?_replaceBody_isSome_iff (hw : d.WellFormed) (events : List Event) :
    ((replaceBody events).failure? d).isSome ↔ ¬ d.IsElement d.body := by
  constructor
  · intro hf hb
    obtain ⟨nodes, d', -, -, -, ⟨-, heq⟩ | ⟨hno, -⟩⟩ := replaceBody_spec hw events
    · simp [failure?, heq] at hf
    · exact hno hb
  · intro hb
    obtain ⟨x, ts, d', heq, -⟩ := replaceBody_of_not_isElement hw hb events
    simp [failure?, heq]

/-! ## §3 What is left -/

theorem Adjoins.refl (hw : d.WellFormed) : Adjoins d d [] [] :=
  ⟨.refl hw, depicts_nil d, .refl d, rfl⟩

theorem Adjoins.trans (h : Adjoins d d' ts trees) (h' : Adjoins d' d'' us trees') :
    Adjoins d d'' (ts ++ us) (trees ++ trees') where
  beside := h.beside.trans h'.beside
  drawn := (h.drawn.beside h.beside.wellFormed h'.beside fun t ht =>
    (h.beside.root t ht).2.1).append h'.drawn
  freesNothing := h.freesNothing.trans h'.freesNothing
  body := h'.body.trans h.body

/-- What reloads that fail do to a document, if `trees` is what they would have shown. -/
structure LeftBehind (d d' : Document) (trees : List Tree) : Prop where
  /-- The trees are made beside the document, and nothing else is done to it. -/
  beside : ∃ ts, BuiltBeside d d' ts ∧ d'.Depicts ts trees
  listeners : d'.listeners = d.listeners
  /-- Nothing of it is seen. -/
  html : ∀ x, d.contains x → d'.outerHtml x = d.outerHtml x
  /-- Each node of the trees is one node more. -/
  nodeCount : d'.nodeCount = d.nodeCount + (Tree.kindsOf trees).length
  /-- There is no trace if there was nothing to show, and only then. -/
  untouched : d' = d ↔ trees = []

theorem Adjoins.leftBehind (h : Adjoins d d' ts trees) (hw : d.WellFormed) (hn : d.Numbered)
    (hnone : trees = [] → d' = d) : LeftBehind d d' trees := by
  have hcount := h.beside.nodeCount_eq hw h.drawn
  constructor
  case beside => exact ⟨ts, builtBeside_of_beside hw hn h.beside h.freesNothing, h.drawn⟩
  case listeners => exact h.beside.listeners
  case html => exact fun x hx => h.beside.outerHtml hw hx
  case nodeCount => exact hcount
  case untouched =>
    refine ⟨fun heq => Tree.kindsOf_eq_nil_iff.mp (List.length_eq_zero_iff.mp ?_), hnone⟩
    rw [heq] at hcount
    omega

/-! ## §4 Reload after reload -/

/-- New bodies for a document, one after the other, whatever comes of each. -/
def replaceBodies (pages : List (List Event)) (d : Document) : Document :=
  pages.foldl (fun d events => ((replaceBody events).apply d).2) d

/-- None of the new bodies is put in place. -/
def AllRefused : List (List Event) → Document → Prop
  | [], _ => True
  | events :: pages, d =>
    ((replaceBody events).failure? d).isSome ∧ AllRefused pages ((replaceBody events).apply d).2

variable {pages : List (List Event)}

theorem adjoins_replaceBodies (hw : d.WellFormed) (hr : AllRefused pages d) :
    ∃ ts, Adjoins d (replaceBodies pages d) ts (pages.flatMap sketch) := by
  induction pages generalizing d with
  | nil => exact ⟨[], .refl hw⟩
  | cons events pages ih =>
    have hb := (failure?_replaceBody_isSome_iff hw events).mp hr.1
    obtain ⟨x, ts, d', heq, -, h⟩ := replaceBody_of_not_isElement hw hb events
    have hrest := hr.2
    rw [heq] at hrest
    obtain ⟨us, hus⟩ := ih h.beside.wellFormed hrest
    rw [replaceBodies, List.foldl_cons, heq]
    exact ⟨ts ++ us, h.trans hus⟩

/-- Pages with nothing on them leave nothing. -/
theorem replaceBodies_of_sketch_eq_nil (hw : d.WellFormed) (hr : AllRefused pages d)
    (hnone : pages.flatMap sketch = []) : replaceBodies pages d = d := by
  induction pages with
  | nil => rfl
  | cons events pages ih =>
    rw [List.flatMap_cons, List.append_eq_nil_iff] at hnone
    have hb := (failure?_replaceBody_isSome_iff hw events).mp hr.1
    obtain ⟨x, ts, d', heq, hbuilt, -⟩ := replaceBody_of_not_isElement hw hb events
    have hsame := buildFragment_of_sketch_eq_nil hnone.1 d
    rw [hbuilt] at hsame
    obtain rfl : d' = d := hsame
    have hrest := hr.2
    rw [heq] at hrest
    rw [replaceBodies, List.foldl_cons, heq]
    exact ih hrest hnone.2

section spent

variable (hw : d.WellFormed) (hs : d.Spent d.body)
include hw hs

/-- A document whose body has gone for good refuses every new one. -/
theorem allRefused_of_spent (pages : List (List Event)) : AllRefused pages d := by
  induction pages generalizing d with
  | nil => trivial
  | cons events pages ih =>
    have hb : ¬ d.IsElement d.body := not_isElement_of_dead hs.dead
    obtain ⟨x, ts, d', heq, -, h⟩ := replaceBody_of_not_isElement hw hb events
    refine ⟨(failure?_replaceBody_isSome_iff hw events).mpr hb, ?_⟩
    rw [heq]
    exact ih h.beside.wellFormed (h.body ▸ hs.mono (h.freesNothing.kept _))

/-- It grows by the same number of nodes each time that the same page is tried again. -/
theorem nodeCount_replaceBodies_replicate (n : Nat) (events : List Event) :
    (replaceBodies (.replicate n events) d).nodeCount =
      d.nodeCount + n * (Tree.kindsOf (sketch events)).length := by
  obtain ⟨ts, h⟩ := adjoins_replaceBodies hw (allRefused_of_spent hw hs (.replicate n events))
  have hsum : (Tree.kindsOf ((List.replicate n events).flatMap sketch)).length =
      n * (Tree.kindsOf (sketch events)).length := by
    clear h
    induction n with
    | zero => simp [Tree.kindsOf]
    | succ n ih =>
      rw [List.replicate_succ, List.flatMap_cons, Tree.kindsOf_append, List.length_append, ih,
        Nat.succ_mul, Nat.add_comm]
  rw [h.beside.nodeCount_eq hw h.drawn, hsum]

end spent

end Markdown

namespace Host

open CopyControl.Action Markdown

/-- A node that has gone has spent its handle, unless its slot has been emptied `2 ^ 32` times. -/
theorem spent_of_dead {h : Host} {as : List Action} {x : NodeId} (hw : h.document.WellFormed)
    (hx : h.document.contains x) (hn : timesEmptied x.index as h < UInt32.size)
    (hdead : (performAll as h).document.contains x = false) :
    (performAll as h).document.Spent x := by
  refine ⟨_, generation?_performAll hw as (generation?_of_contains hx), fun heq => ?_⟩
  have hzero : timesEmptied x.index as h = 0 := by
    rw [UInt32.add_eq_left, ← UInt32.toNat_inj, UInt32.toNat_ofNat', Nat.mod_eq_of_lt hn] at heq
    exact heq
  have hlive := ((keeps_of_not_emptied hw hzero).node x rfl hx).1
  simp [hdead] at hlive

/-- **Reloads that fail.** In every state of every run, a reload fails exactly if the body is not an
element that is there. Reloads that fail leave the pages that they have built beside the document,
with every node counted, and change nothing else. And once the body has gone, whatever page is
tried is one of them. -/
theorem leftBehind_of_refused (as : List Action) :
    let d := (performAll as (start new)).document
    (∀ events, ((replaceBody events).failure? d).isSome ↔ ¬ d.IsElement d.body) ∧
    (∀ pages, AllRefused pages d →
      LeftBehind d (replaceBodies pages d) (pages.flatMap sketch)) ∧
    (timesEmptied new.body.index as (start new) < UInt32.size → d.contains d.body = false →
      ∀ pages, AllRefused pages d) := by
  intro d
  have hd : d.Reachable := ⟨[], as, rfl⟩
  have hw := hd.wellFormed
  refine ⟨failure?_replaceBody_isSome_iff hw, fun pages hr => ?_, fun hn hdead => ?_⟩
  · obtain ⟨ts, h⟩ := adjoins_replaceBodies hw hr
    exact h.leftBehind hw hd.numbered (replaceBodies_of_sketch_eq_nil hw hr)
  · have hbody : d.body = new.body := congrArg (·.1.2) (anchors_performAll wellFormed_new as)
    rw [hbody] at hdead
    refine allRefused_of_spent hw (hbody ▸ ?_)
    exact spent_of_dead wellFormed_new (by decide) hn hdead

/-- A page that is observed, and then loses its body. -/
def bodyReleased : List Action :=
  [.operate (.observe new.root true), .operate (.release new.body)]

/-- Three pages, the second of which has nothing on it. -/
theorem leftBehind_of_refused_bodyReleased :
    let d := (performAll bodyReleased (start new)).document
    let pages := [read "hi\n", read "[a]: /b\n", read "- *x*\n\n---\n"]
    let d' := replaceBodies pages d
    timesEmptied new.body.index bodyReleased (start new) < UInt32.size ∧
      d.contains d.body = false ∧ AllRefused pages d ∧ LeftBehind d d' (pages.flatMap sketch) ∧
      d.nodeCount = 2 ∧ d'.nodeCount = 9 ∧ d'.queued 0 = d.queued 0 := by
  intro d pages d'
  have hn : timesEmptied new.body.index bodyReleased (start new) < UInt32.size := by
    decide +kernel
  have hdead : d.contains d.body = false := by decide +kernel
  obtain ⟨-, hleft, hall⟩ := leftBehind_of_refused bodyReleased
  have hr : AllRefused pages d := hall hn hdead pages
  exact ⟨hn, hdead, hr, hleft pages hr, by decide +kernel, by decide +kernel, by decide +kernel⟩

/-- A line of text, for a page that has lost its body, is refused, and its paragraph and its text
are there nevertheless; and so each time that it is tried. -/
theorem grown_bodyReleased :
    let d := (performAll bodyReleased (start new)).document
    let line := read "hi\n"
    (replaceBody line).failure? d = some (.unknownNode new.body) ∧
      ((replaceBody line).apply d).2 ≠ d ∧ d.nodeCount = 2 ∧
      ((replaceBody line).apply d).2.nodeCount = 4 ∧
      ∀ n, (replaceBodies (.replicate n line) d).nodeCount = 2 + n * 2 := by
  intro d line
  have hcount : d.nodeCount = 2 := by decide +kernel
  refine ⟨by decide +kernel, by decide +kernel, hcount, by decide +kernel, fun n => ?_⟩
  have hw : d.WellFormed := wellFormed_performAll wellFormed_new bodyReleased
  have hs : d.Spent d.body := ⟨1, by decide +kernel, by decide +kernel⟩
  have htwo : (Tree.kindsOf (sketch line)).length = 2 := by decide +kernel
  rw [nodeCount_replaceBodies_replicate hw hs, hcount, htwo]

end Host

end CopyControl
