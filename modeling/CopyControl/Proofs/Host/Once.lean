import CopyControl.Proofs.Enhance.Again
import CopyControl.Proofs.Host.Handles
import CopyControl.Proofs.Host.Labels

/-!
One control for each `pre`.

Whoever runs passes, and whatever is done to the document in between, a `pre` gets at most one
control in its life: a pass marks the `pre` for which it makes one, marks last as long as their
`pre`, and a marked `pre` is passed over (`allControlsFor_spec`). A second pass right after a first
one does nothing, and what has failed in the first fails again. That takes a root whose handle has
come back (`second_pass_fails_rootReissued`).

* §1 the passes of one action
* §2 the controls that an action makes for a `pre`
* §3 whole runs
-/

namespace CopyControl

open Relation Document Enhance

/-! ## §1 The passes of one action -/

namespace Document

variable {d d' d'' : Document}

theorem SameArena.trans (h : d.SameArena d') (h' : d'.SameArena d'') : d.SameArena d'' :=
  ⟨h'.slots.trans h.slots, h'.free.trans h.free, h'.listeners.trans h.listeners,
    h'.anchors.trans h.anchors⟩

/-- Any number of passes come to one pass at most: those that follow the first find a settled
document. -/
theorem PassesFor.once {clipboard : Option String} (hw : d.WellFormed)
    (h : PassesFor clipboard d d') :
    d.SameArena d' ∨ ∃ c ∈ clipboard, ∃ d₁, d.SameArena d₁ ∧
      (d₁.enhance c).document.SameArena d' := by
  induction h with
  | refl => exact .inl ⟨rfl, rfl, rfl, rfl⟩
  | @tail d₂ d₃ h₂ hstep ih =>
    rcases hstep with hs | ⟨c', hc', rfl⟩
    · rcases ih with h | ⟨c, hc, d₁, h, h'⟩
      · exact .inl (h.trans hs)
      · exact .inr ⟨c, hc, d₁, h, h'.trans hs⟩
    · rcases ih with h | ⟨c, hc, d₁, h, h'⟩
      · exact .inr ⟨c', hc', d₂, h, ⟨rfl, rfl, rfl, rfl⟩⟩
      · have hw₁ := h.wellFormed hw
        have hw' := (changes_enhance hw₁ c).wellFormed hw₁
        have hsettled := (settled_enhance hw₁ c).congr hw' h'
        rw [(enhance_of_settled (h'.wellFormed hw') hsettled c').1]
        exact .inr ⟨c, hc, d₁, h, h'⟩

end Document

/-! ## §2 The controls that an action makes for a `pre` -/

/-- Whether the listener copies a block that is directly inside `pre`. -/
def Document.copiesFrom (d : Document) (pre : NodeId) : Listener → Bool
  | .copyBlock code _ _ => d.parent? code = some pre
  | .note _ => false

namespace Action

/-- The controls that the action makes for blocks of `pre`. -/
def controlsFor (pre : NodeId) (a : Action) (h : Host) : List NodeId :=
  (a.newControls h).filter fun control =>
    ((a.perform h).document.clickListeners control).any ((a.perform h).document.copiesFrom pre)

/-- The controls that a run makes for blocks of `pre`. -/
def allControlsFor (pre : NodeId) : List Action → Host → List NodeId
  | [], _ => []
  | a :: as, h => a.controlsFor pre h ++ allControlsFor pre as (a.perform h)

theorem allControlsFor_append (pre : NodeId) (as bs : List Action) (h : Host) :
    allControlsFor pre (as ++ bs) h =
      allControlsFor pre as h ++ allControlsFor pre bs (performAll as h) := by
  induction as generalizing h with
  | nil => rfl
  | cons a as ih =>
    rw [List.cons_append, allControlsFor, ih, allControlsFor, List.append_assoc]
    rfl

end Action

namespace Host

open CopyControl.Action

variable {h : Host} {a : Action}

/-- The new controls are the nodes of new listeners. -/
theorem newControls_eq (hw : h.document.WellFormed) (hp : a.runsPasses h)
    {ls : List (NodeId × Listener)}
    (hl : (a.perform h).document.listeners = h.document.listeners ++ ls)
    (hnew : ∀ l ∈ ls, h.document.contains l.1 = false) : a.newControls h = ls.map Prod.fst := by
  have hold : (h.document.listeners.map Prod.fst).filter (!h.document.contains ·) = [] := by
    rw [List.filter_eq_nil_iff]
    intro x hx
    obtain ⟨l, hl, rfl⟩ := List.mem_map.mp hx
    simp [hw.listeners_live l hl]
  rw [newControls, if_pos hp, hl, List.map_append, List.filter_append, hold, List.nil_append,
    List.filter_eq_self]
  intro x hx
  obtain ⟨l, hl, rfl⟩ := List.mem_map.mp hx
  simp [hnew l hl]

theorem newControls_of_same (hw : h.document.WellFormed) (hp : a.runsPasses h)
    (hs : h.document.SameArena (a.perform h).document) : a.newControls h = [] := by
  have hl : (a.perform h).document.listeners = h.document.listeners ++ [] := by
    rw [hs.listeners, List.append_nil]
  exact newControls_eq hw hp hl (by simp)

section pass
variable {d : Document} {clipboard : String} {os : List Outfit} (hw : h.document.WellFormed)
  (hp : a.runsPasses h) (h₁ : h.document.SameArena d)
  (hpr : d.Progress clipboard d.codeBlocks (d.enhance clipboard) os)
  (h₂ : (d.enhance clipboard).document.SameArena (a.perform h).document)
include hw hp h₁ hpr h₂

/-- The controls that a pass makes are the buttons of the outfits. -/
theorem newControls_of_pass : a.newControls h = os.map Outfit.button := by
  have hl : (a.perform h).document.listeners = h.document.listeners ++
      os.map fun o => (o.button, .copyBlock o.code o.button clipboard) := by
    rw [h₂.listeners, hpr.enhanced.listeners, h₁.listeners]
  rw [newControls_eq hw hp hl, List.map_map]
  · rfl
  · intro l hl
    obtain ⟨o, ho, rfl⟩ := List.mem_map.mp hl
    rw [← (lookups_congr h₁.slots).1]
    exact hpr.enhanced.made_fresh o ho _ (by simp [Outfit.made])

/-- The controls that a pass makes for a `pre` are the buttons of the outfits it is given. -/
theorem controlsFor_of_pass (pre : NodeId) :
    a.controlsFor pre h = (os.filter (·.pre = pre)).map Outfit.button := by
  have hw₁ := h₁.wellFormed hw
  obtain ⟨-, -, hparent₂, -⟩ := lookups_congr h₂.slots
  have hnew := newControls_of_pass hw hp h₁ hpr h₂
  rw [controlsFor, hnew, List.filter_map]
  refine congrArg (List.map _) (List.filter_congr fun o ho => ?_)
  -- the listener of an outfit's button copies a block of the outfit's `pre`
  obtain ⟨hmem, hpar⟩ := List.mem_filter.mp (List.mem_of_mem_head? (hpr.bare o ho).2.2)
  rw [decide_eq_true_iff] at hpar
  obtain ⟨q, hb⟩ := block_of_isBlock ((mem_codeBlocks_iff hw₁).mp hmem)
  obtain rfl := Option.some.inj (hpar.symm.trans hb.link)
  have hclick : (a.perform h).document.clickListeners o.button =
      [.copyBlock o.code o.button clipboard] := by
    rw [clickListeners, h₂.listeners]
    exact hpr.enhanced.clickListeners_button hw₁ ho
  have hcodepar : (a.perform h).document.parent? o.code = some o.pre := by
    rw [hparent₂]
    exact hpr.link hb
  simp [hclick, copiesFrom, hcodepar]

end pass

/-- What a pass makes for a `pre`: nothing, or one control, and then the `pre` has its mark, which
it had not before. -/
theorem controlsFor_spec (hw : h.document.WellFormed) (pre : NodeId) (a : Action) :
    (a.controlsFor pre h).length ≤ 1 ∧
      (a.controlsFor pre h ≠ [] →
        h.document.contains pre ∧ h.document.hasClass pre enhancedClass = false ∧
        (a.perform h).document.contains pre ∧
        (a.perform h).document.hasClass pre enhancedClass) := by
  by_cases hp : a.runsPasses h
  swap
  · simp [controlsFor, newControls, hp]
  rcases (passesFor_perform hp).once hw with hs | ⟨clipboard, -, d₁, h₁, h₂⟩
  · simp [controlsFor, newControls_of_same hw hp hs]
  obtain ⟨os, hpr⟩ := enhance_progress (h₁.wellFormed hw) clipboard
  obtain ⟨hlive₁, hkind₁, -, -⟩ := lookups_congr h₁.slots
  obtain ⟨hlive₂, hkind₂, -, -⟩ := lookups_congr h₂.slots
  rw [controlsFor_of_pass hw hp h₁ hpr h₂ pre, List.length_map]
  refine ⟨?_, fun hne => ?_⟩
  · have hcount : (os.filter (·.pre = pre)).length = (os.map Outfit.pre).count pre := by
      rw [List.count, List.countP_map, List.countP_eq_length_filter]
      congr 1
    rw [hcount]
    exact List.nodup_iff_count_le_one.mp hpr.enhanced.pres_nodup pre
  · obtain ⟨o, ho⟩ := List.exists_mem_of_ne_nil _ (mt List.map_eq_nil_iff.mpr hne)
    have hopre : decide (o.pre = pre) = true := (List.mem_filter.mp ho).2
    obtain rfl := of_decide_eq_true hopre
    replace ho := List.mem_of_mem_filter ho
    have hlive := hpr.enhanced.contains_pre ho
    refine ⟨hlive₁ ▸ hlive, ?_, ?_, ?_⟩
    · rw [← hasClass_congr (congrFun hkind₁ o.pre)]
      exact (hpr.bare o ho).2.1
    · rw [hlive₂]
      exact hpr.enhanced.contains_iff.mpr (.inr hlive)
    · rw [hasClass_congr (congrFun hkind₂ o.pre)]
      exact (hpr.enhanced.hasClass_pre ho).1

/-! ## §3 Whole runs -/

/-- The handle does not come back in the run once its node has gone. -/
def NeverBack (h : Host) (as : List Action) (x : NodeId) : Prop :=
  ∀ bs cs ds es, as = bs ++ cs ++ ds ++ es → (performAll bs h).document.contains x →
    (performAll (bs ++ cs) h).document.contains x = false →
    (performAll (bs ++ cs ++ ds) h).document.contains x = false

/-- At most one control is made for a `pre`, and while the `pre` is there it has its mark if one
has been made. -/
theorem allControlsFor_spec (hw : h.document.WellFormed) {as : List Action} {pre : NodeId}
    (hback : h.NeverBack as pre) :
    (allControlsFor pre as h).length ≤ 1 ∧
      (allControlsFor pre as h ≠ [] →
        (∃ bs cs, as = bs ++ cs ∧ (performAll bs h).document.contains pre) ∧
        ((performAll as h).document.contains pre →
          (performAll as h).document.hasClass pre enhancedClass)) := by
  induction as using List.reverseRecOn with
  | nil => simp [allControlsFor]
  | append_singleton as a ih =>
    obtain ⟨hone, hmade⟩ := ih fun bs cs ds es has =>
      hback bs cs ds (es ++ [a]) (by rw [has]; simp)
    have hw' := wellFormed_performAll hw as
    obtain ⟨hone', hnew⟩ := controlsFor_spec hw' pre a
    have hperform : performAll (as ++ [a]) h = a.perform (performAll as h) :=
      performAll_append as [a] h
    rw [allControlsFor_append, List.length_append, hperform]
    simp only [allControlsFor, List.append_nil]
    by_cases hn : a.controlsFor pre (performAll as h) = []
    · rw [hn, List.append_nil]
      refine ⟨by simpa using hone, fun hne => ?_⟩
      obtain ⟨⟨bs, cs, rfl, hlive⟩, hmark⟩ := hmade hne
      refine ⟨⟨bs, cs ++ [a], by simp, hlive⟩, fun hlive' => ?_⟩
      -- the `pre` was there all the time, so its mark is still there
      have hmid : (performAll (bs ++ cs) h).document.contains pre := by
        by_contra hdead
        have := hback bs cs [a] [] (by simp) hlive (Bool.eq_false_iff.mpr hdead)
        rw [hperform] at this
        simp [this] at hlive'
      exact (works_perform hw' a).hasClass hw' hlive' (hmark hmid)
    · obtain ⟨hlive, hbare, hlive', hmark⟩ := hnew hn
      have hnone : allControlsFor pre as h = [] := by
        by_contra hne
        simp [(hmade hne).2 hlive] at hbare
      rw [hnone]
      refine ⟨by simpa using hone', fun _ => ⟨⟨as, [a], rfl, hlive⟩, fun _ => hmark⟩⟩

theorem neverBack_of_timesEmptied (hw : h.document.WellFormed) {as : List Action} {x : NodeId}
    (hn : timesEmptied x.index as h < UInt32.size) : h.NeverBack as x := by
  rintro bs cs ds es rfl hlive hdead
  rw [timesEmptied_append] at hn
  exact dead_of_dead hw hlive hdead (by omega)

theorem neverBack_of_live {as : List Action} {x : NodeId}
    (hlive : ∀ n, (performAll (as.take n) h).document.contains x) : h.NeverBack as x := by
  rintro bs cs ds es rfl - hdead
  have := hlive (bs ++ cs).length
  rw [List.append_assoc (bs ++ cs), List.take_left] at this
  simp [hdead] at this

/-- The root of a new document stays an `html` element. -/
theorem rootApart_performAll (as : List Action)
    (hn : timesEmptied new.root.index as (start new) < UInt32.size) :
    (performAll as (start new)).document.RootApart := by
  intro t ht
  have hroot : (performAll as (start new)).document.root = new.root :=
    congrArg Prod.fst (landmarks_performAll (h := start new) wellFormed_new as)
  have hlive : (start new).document.contains new.root := contains_of_tag? tag?_new_root
  rw [hroot] at ht
  have h₀ := not_emptied_of_live wellFormed_new hlive (contains_of_tag? ht) hn
  rw [((keeps_of_not_emptied wellFormed_new h₀).node _ rfl hlive).2] at ht
  obtain rfl := Option.some.inj (tag?_new_root.symm.trans ht)
  decide

theorem enhance_summary (h : Host) (clipboard : String) :
    (h.enhance clipboard).1 = (h.document.enhance clipboard).summary := rfl

/-- A second pass right after a first one, by whomever, does nothing. -/
theorem second_pass (hw : h.document.WellFormed) (first second : String) :
    ((h.enhance first).2.enhance second).2.document = (h.enhance first).2.document ∧
      ((h.enhance first).2.enhance second).1.enhanced = 0 ∧
      ((h.enhance first).2.enhance second).1.found = (h.enhance first).1.found ∧
      ((h.enhance first).2.enhance second).1.skipped +
          ((h.enhance first).2.enhance second).1.failed = (h.enhance first).1.found ∧
      (h.document.RootApart → ((h.enhance first).2.enhance second).1.failed = 0 ∧
        ((h.enhance first).2.enhance second).1.skipped = (h.enhance first).1.found) := by
  have hdoc := enhance_document h first
  obtain ⟨hd, he, hf, ht, hfail⟩ := enhance_enhance hw first second hdoc
  simp only [enhance_summary, enhance_document (h.enhance first).2]
  exact ⟨hd, he, hf, ht, fun hr => ⟨hfail hr, by have := hfail hr; omega⟩⟩

/-- In every run, at most one control is made for a `pre`: for the whole of its life, however often
handles are used again, and for its handle, as long as the handle is not given out again. After
every run, a second pass finds the same blocks, passes them all over, and leaves the document
exactly as it is; the root's handle must not have been given out again for none of them to fail. -/
theorem one_control_each (as : List Action) :
    (∀ bs cs pre, as = bs ++ cs →
      (∀ n, (performAll (cs.take n) (performAll bs (start new))).document.contains pre) →
      (allControlsFor pre cs (performAll bs (start new))).length ≤ 1) ∧
    (∀ pre, timesEmptied pre.index as (start new) < UInt32.size →
      (allControlsFor pre as (start new)).length ≤ 1) ∧
    ∀ clipboard clipboard',
      let first := (performAll as (start new)).enhance clipboard
      let second := first.2.enhance clipboard'
      second.2.document = first.2.document ∧
      second.1.enhanced = 0 ∧ second.1.found = first.1.found ∧
      second.1.skipped + second.1.failed = first.1.found ∧
      (timesEmptied new.root.index as (start new) < UInt32.size →
        second.1.failed = 0 ∧ second.1.skipped = first.1.found) := by
  have hw₀ : (start new).document.WellFormed := wellFormed_new
  refine ⟨fun bs cs pre _ hlive => ?_, fun pre hn => ?_, fun c c' => ?_⟩
  · exact (allControlsFor_spec (wellFormed_performAll hw₀ bs) (neverBack_of_live hlive)).1
  · exact (allControlsFor_spec hw₀ (neverBack_of_timesEmptied hw₀ hn)).1
  obtain ⟨hd, he, hf, ht, hfail⟩ := second_pass (wellFormed_performAll hw₀ as) c c'
  exact ⟨hd, he, hf, ht, fun hn => hfail (rootApart_performAll as hn)⟩

/-- A block is put into the page and two passes are run, for different clipboards. -/
def twoPasses : List Action :=
  oneBlock.map .operate ++ [.enhance "", .enhance "other"]

theorem one_control_each_twoPasses :
    (allControlsFor ⟨3, 0⟩ [.enhance "", .enhance "other"]
        (performAll (oneBlock.map .operate) (start new))).length ≤ 1 ∧
      allControlsFor ⟨3, 0⟩ twoPasses (start new) = [⟨5, 0⟩] ∧
      (allControlsFor ⟨3, 0⟩ twoPasses (start new)).length ≤ 1 ∧
      (((performAll twoPasses (start new)).enhance "").2.enhance "other").1.failed = 0 := by
  have hn : ∀ i, timesEmptied i twoPasses (start new) < UInt32.size := fun i =>
    Nat.lt_of_le_of_lt (timesEmptied_le_length i twoPasses _) (by decide)
  obtain ⟨hlife, hrun, hpass⟩ := one_control_each twoPasses
  refine ⟨hlife (oneBlock.map .operate) _ ⟨3, 0⟩ rfl fun n => ?_, by decide +kernel,
    hrun ⟨3, 0⟩ (hn 3), ((hpass "" "other").2.2.2.2 (hn _)).1⟩
  -- there are no more than two actions to be taken
  match n with
  | 0 | 1 => decide +kernel
  | n + 2 =>
    rw [List.take_of_length_le (by simp)]
    decide +kernel

/-- Two passes right after one another, over a document whose root is a `pre` with the handle of the
first root, for the root's slot has been emptied `2 ^ 32` times. Its block fails in both. -/
theorem second_pass_fails_rootReissued :
    let reissued := rootReissued.map Action.operate
    let first := (performAll reissued (start new)).enhance ""
    let second := first.2.enhance ""
    timesEmptied new.root.index reissued (start new) = UInt32.size ∧
      first.1 = ⟨1, 0, 0, 1⟩ ∧ second.1 = ⟨1, 0, 0, 1⟩ ∧
      ¬ (second.1.failed = 0 ∧ second.1.skipped = first.1.found) := by
  intro reissued
  have htimes : timesEmptied new.root.index reissued (start new) = UInt32.size :=
    (timesEmptied_operate wellFormed_new (g := 0) rfl rootReissued).trans rootReissued_spec.2
  have hdoc : (performAll reissued (start new)).document =
      Operation.runAll lonePre
        ((Operation.runAll rootReleased new).aged 0 (.ofNat (UInt32.size - 1))) :=
    (document_performAll_operate rootReissued (start new)).trans rootReissued_spec.1
  -- the host must not be unfolded, for the run has some billions of actions
  generalize performAll reissued (start new) = h at hdoc ⊢
  intro first second
  have hfirst : first.1 = ⟨1, 0, 0, 1⟩ := by
    rw [enhance_summary, hdoc]
    decide +kernel
  have hsecond : second.1 = ⟨1, 0, 0, 1⟩ := by
    rw [enhance_summary, enhance_document, hdoc]
    decide +kernel
  refine ⟨htimes, hfirst, hsecond, fun hspared => ?_⟩
  rw [hsecond] at hspared
  cases hspared.1

end Host

end CopyControl
