import CopyControl.Proofs.Host.Refusal
import CopyControl.Proofs.Host.Sessions
import CopyControl.Proofs.Markdown.Fragment

/-!
A fragment is built beside the page.

The builder calls operations that can fail, on whatever is on top of its stack, and nobody has
looked whether the events are well nested. None of the operations fails, because all that the
builder links are nodes it has made itself, and it links each of them below another tree of its own
(`buildFragment_sketch`). So nothing that stood before is touched, and whoever watches only that
hears nothing. Nothing that the builder makes is lost either: it frees no slot (`FreesNothing`), and
each new node is in one of the trees whose roots it answers.

* §1 nothing freed
* §2 what a fragment is beside
-/

namespace CopyControl

open Document Edit Relation

namespace Document

variable {d d' d'' : Document}

/-! ## §1 Nothing freed -/

/-- No slot has been emptied: each has the generation it had, and a new one its first. -/
structure FreesNothing (d d' : Document) : Prop where
  kept : ∀ i g, d.generation? i = some g → d'.generation? i = some g
  first : ∀ i g, d.generation? i = none → d'.generation? i = some g → g = 0

theorem FreesNothing.refl (d : Document) : d.FreesNothing d where
  kept _ _ h := h
  first i g h h' := by simp [h] at h'

theorem FreesNothing.trans (h : d.FreesNothing d') (h' : d'.FreesNothing d'') :
    d.FreesNothing d'' where
  kept i g hg := h'.kept i g (h.kept i g hg)
  first i g hnone hg := by
    cases hi : d'.generation? i with
    | none => exact h'.first i g hi hg
    | some g' =>
      have heq := h'.kept i g' hi
      rw [hg] at heq
      rw [Option.some.inj heq]
      exact h.first i g' hnone hi

/-- A slot that an operation adds has its first generation. -/
theorem first_createNode (d : Document) (k : NodeKind) {i : Nat} {g : UInt32}
    (hnone : d.generation? i = none) (hg : (d.createNode k).2.generation? i = some g) : g = 0 := by
  have hi : d.slots[i]? = none := by simpa [generation?] using hnone
  unfold createNode at hg
  split at hg
  · simp [generation?, Array.getElem?_modify, hi] at hg
  · by_cases his : i = d.slots.size
    · simpa [generation?, Array.getElem?_push, his] using hg.symm
    · simp [generation?, Array.getElem?_push, his, hi] at hg

theorem OnlyFrees.generation?_eq_none (h : d.OnlyFrees d') {i : Nat}
    (hnone : d.generation? i = none) : d'.generation? i = none := by
  rcases h i with ⟨hg, -⟩ | ⟨hg, -⟩
  · rw [hg, hnone]
  · rw [hg, hnone]
    rfl

/-- Only a step that makes a node adds a slot. -/
theorem Change.first (hw : d.WellFormed) (h : d.Change d') {i : Nat} {g : UInt32}
    (hnone : d.generation? i = none) (hg : d'.generation? i = some g) : g = 0 := by
  have hsame : d'.generation? i = none → g = 0 := fun h' => by simp [h'] at hg
  cases h with
  | create k hk => exact first_createNode d k hnone hg
  | data id f k hf hk => exact hsame (by rw [generation?_updateNode, hnone])
  | listen id l hid => exact hsame hnone
  | move p c r hp hc => exact hsame (by rw [generation?_move, hnone])
  | cut p c h =>
    exact hsame (by
      rw [generation?_notify, detach, generation?_updateNode, generation?_updateNode, hnone])
  | swap p cs hp hcs =>
    refine hsame ((swapChildren_spec hw hp hcs).2.generation?_eq_none ?_)
    rw [generation?_regrouped, hnone]
  | free id h => exact hsame ((onlyFrees_releaseSubtree hw id).generation?_eq_none hnone)

theorem freesNothing_of_adds (hw : d.WellFormed) (h : ReflTransGen Adds d d') :
    d.FreesNothing d' := by
  induction h with
  | refl => exact .refl d
  | tail hs h ih =>
    refine ih.trans ⟨fun i => (h.keeps i).generation, fun i g => ?_⟩
    exact h.change.first (adds_wellFormed hw hs)

end Document

theorem Document.Reachable.numbered {d : Document} (hd : d.Reachable) : d.Numbered := by
  obtain ⟨os, as, rfl⟩ := hd
  exact Host.numbered_performAll (wellFormed_runAll wellFormed_new os)
    (numbered_new.runAll wellFormed_new os) as

/-! ## §2 What a fragment is beside -/

namespace Markdown

variable {d d' : Document}

/-- The nodes `ts` and what is below them have been made beside a document, and nothing else has
been done to it. -/
structure BuiltBeside (d d' : Document) (ts : List NodeId) : Prop where
  /-- A node that was live is what it was, and where it was. -/
  node : ∀ x, d.contains x → d'.node? x = d.node? x
  clickListeners : ∀ x, d.contains x → d'.clickListeners x = d.clickListeners x
  /-- Who watches such a node is registered as before and has got no record. -/
  untold : ∀ g ∈ d.observers, d.contains g.target →
    g ∈ d'.observers ∧ d'.mailboxes[g.id]? = d.mailboxes[g.id]?
  freesNothing : d.FreesNothing d'
  nodup : ts.Nodup
  root : ∀ t ∈ ts, d'.contains t ∧ d'.parent? t = none
  /-- What is at or below the nodes is what has been made. -/
  made : ∀ x, (∃ t ∈ ts, d'.AtOrAbove t x) ↔ d'.contains x ∧ d.contains x = false
  /-- Each node that has been made is at or below one of them. -/
  one : ∀ x, d'.contains x → d.contains x = false → ∃! t, t ∈ ts ∧ d'.AtOrAbove t x

theorem builtBeside_of_beside {ts : List NodeId} (hw : d.WellFormed) (hn : d.Numbered)
    (hb : d.Beside d' ts) (hf : d.FreesNothing d') : BuiltBeside d d' ts := by
  have hroot := hb.root
  constructor
  case node =>
    intro x hx
    exact node?_eq_of_lookups (hb.kind? x hx) (hb.parent? x hx) (hb.children x hx)
  case clickListeners =>
    intro x _
    rw [Document.clickListeners, hb.listeners, Document.clickListeners]
  case untold =>
    intro g hg hlive
    have hquiet := hb.untold g.id fun g' hg' => by rwa [hn.eq_of_mem_registrationsOf hg hg']
    refine ⟨?_, hquiet.mailbox⟩
    have hmem : g ∈ d'.registrationsOf g.id := by
      rw [hquiet.registrations]
      exact List.mem_filter.mpr ⟨hg, decide_eq_true rfl⟩
    exact List.mem_of_mem_filter hmem
  case freesNothing => exact hf
  case nodup => exact hb.nodup
  case root => exact fun t ht => (hroot t ht).2
  case made =>
    intro x
    constructor
    · rintro ⟨t, ht, htx⟩
      refine ⟨?_, hb.dead_of_atOrAbove hw ht htx⟩
      -- a handle that names no node is below no root
      cases hx : d'.contains x with
      | true => rfl
      | false =>
        have hlive := (hroot t ht).2.1
        rw [eq_of_atOrAbove_of_dead htx hx, hx] at hlive
        exact hlive
    · rintro ⟨hx, hxn⟩
      exact (hb.covered x hx).resolve_left (by simp [hxn])
  case one =>
    intro x hx hxn
    obtain ⟨t, ht, htx⟩ := (hb.covered x hx).resolve_left (by simp [hxn])
    refine ⟨t, ⟨ht, htx⟩, ?_⟩
    rintro u ⟨hu, hux⟩
    exact hb.eq_of_atOrAbove hu ht hux htx

/-- **Building a fragment.** In a document that can be reached, and whatever the events are, the
builder does not fail, and all it does is to make nodes beside what there is. -/
theorem buildFragment_beside (hd : d.Reachable) (events : List Event) :
    ∃ ts d', (buildFragment events).apply d = (.ok ts, d') ∧ BuiltBeside d d' ts := by
  have hw := hd.wellFormed
  obtain ⟨ts, d', heq, hb, -⟩ := buildFragment_sketch hw events
  have hadds := (constructive_buildFragment events).adds d hw
  rw [heq] at hadds
  exact ⟨ts, d', heq, builtBeside_of_beside hw hd.numbered hb (freesNothing_of_adds hw hadds)⟩

/-- Ends without starts, and starts without ends: the first end closes nothing, the text of the
image is its description and its code is below it, the end of the paragraph closes the image, and
what stands after the last end is at the top level again. -/
def crossed : List Event :=
  [.stop .table, .start .paragraph, .start (.image "u" ""), .text "a", .code "b", .stop .paragraph,
    .text "c", .stop .strong, .stop .strong, .rule, .start (.codeBlock none), .text "d"]

/-- A page with a text that is observed, and a slot that is free. -/
def observedPage : List Operation :=
  [.createElement "p", .appendChild new.body ⟨3, 0⟩, .appendText ⟨3, 0⟩ "x", .createElement "hr",
    .release ⟨5, 0⟩, .observe new.root true, .observe ⟨3, 0⟩ false]

theorem buildFragment_beside_crossed :
    let d := Operation.runAll observedPage new
    let d' := ((buildFragment crossed).apply d).2
    d.Reachable ∧ BuiltBeside d d' [⟨5, 1⟩, ⟨10, 0⟩, ⟨11, 0⟩] ∧
      d'.observers = d.observers ∧ d'.queued 0 = [] ∧ d'.queued 1 = [] ∧ d'.nodeCount = 14 ∧
      d'.outerHtml ⟨5, 1⟩ = "<p><img src=\"u\" alt=\"a\">c</p>" := by
  intro d d'
  have hd : d.Reachable := reachable_runAll observedPage
  obtain ⟨ts, d'', heq, hb⟩ := buildFragment_beside hd crossed
  have hts : ((buildFragment crossed).apply d).1 = .ok [⟨5, 1⟩, ⟨10, 0⟩, ⟨11, 0⟩] := by
    decide +kernel
  have hdoc : d' = d'' := congrArg Prod.snd heq
  rw [heq] at hts
  obtain rfl := Except.ok.inj hts
  exact ⟨hd, hdoc ▸ hb, by decide +kernel⟩

end Markdown

end CopyControl
