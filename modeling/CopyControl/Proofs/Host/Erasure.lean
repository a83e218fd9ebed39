import CopyControl.Proofs.Host.Clicks
import CopyControl.Proofs.Host.Once

/-!
Clicks leave no trace.

A run and the same run without its clicks lead to the same document, labels of controls apart: to
the same nodes under the same handles, and to the same records for every observer
(`clicks_leave_no_trace`). What has to hold for this, besides that nobody else edits the inside of
controls, is shown for one action at a time: every control shows a label for as long as it is there,
and clicks are aimed at controls only (`Mannered.perform`).

* §1 runs that leave the inside of controls to clicks
* §2 the invariant
* §3 whole runs
-/

namespace CopyControl

open Relation Document

/-! ## §1 Runs that leave the inside of controls to clicks -/

/-- The inside of the control is as it was, or has gone with the control. -/
structure Document.LeavesInside (d d' : Document) (control : NodeId) : Prop where
  live : d'.contains control → d.SameInside d' control
  dead : d'.contains control = false → ∀ x ∈ d.children control, d'.contains x = false

instance (d d' : Document) (b : NodeId) : Decidable (d.SameInside d' b) :=
  inferInstanceAs (Decidable (_ ∧ _))

instance (d d' : Document) (b : NodeId) : Decidable (d.LeavesInside d' b) :=
  decidable_of_iff ((d'.contains b → d.SameInside d' b) ∧
    (d'.contains b = false → ∀ x ∈ d.children b, d'.contains x = false))
    ⟨fun h => ⟨h.1, h.2⟩, fun h => ⟨h.live, h.dead⟩⟩

/-- The control for which the operation has somebody copy. -/
def Operation.copiesFor? : Operation → Option NodeId
  | addClickListener _ (.copyBlock _ control _) => some control
  | _ => none

namespace Action

/-- An operation edits the inside of none of the controls and has nobody copy but for one of them,
and no click is handled but for one of them. -/
def Respectful (a : Action) (h : Host) (controls : List NodeId) : Prop :=
  match a with
  | operate o =>
    (∀ c ∈ controls, h.document.LeavesInside (a.perform h).document c) ∧
      ∀ c ∈ o.copiesFor?, c ∈ controls
  | handle _ c _ => c ∈ controls
  | _ => True

/-- A run of such actions, with the controls that there have been before. -/
def AllRespectful : List Action → Host → List NodeId → Prop
  | [], _, _ => True
  | a :: as, h, controls =>
    a.Respectful h controls ∧ AllRespectful as (a.perform h) (controls ++ a.newControls h)

instance (a : Action) (h : Host) (controls : List NodeId) :
    Decidable (a.Respectful h controls) :=
  match a with
  | operate _ => inferInstanceAs (Decidable (_ ∧ _))
  | handle _ _ _ => inferInstanceAs (Decidable (_ ∈ _))
  | reload _ | enhance _ | flush _ | click _ | run _ | advance _ | openSession _
  | closeSession _ | abandonSession _ | markReady | setClipboard _ _ | takeNotes => .isTrue trivial

instance decidableAllRespectful : (as : List Action) → (h : Host) → (controls : List NodeId) →
    Decidable (AllRespectful as h controls)
  | [], _, _ => .isTrue trivial
  | a :: as, h, controls =>
    have := decidableAllRespectful as (a.perform h) (controls ++ a.newControls h)
    inferInstanceAs (Decidable (_ ∧ _))

/-- The controls that a run makes. -/
def allControls : List Action → Host → List NodeId
  | [], _ => []
  | a :: as, h => a.newControls h ++ allControls as (a.perform h)

theorem allControls_append (as bs : List Action) (h : Host) :
    allControls (as ++ bs) h = allControls as h ++ allControls bs (performAll as h) := by
  induction as generalizing h with
  | nil => rfl
  | cons a as ih =>
    rw [List.cons_append, allControls, ih, allControls, List.append_assoc]
    rfl

theorem allRespectful_append {as bs : List Action} {h : Host} {controls : List NodeId} :
    AllRespectful (as ++ bs) h controls ↔ AllRespectful as h controls ∧
      AllRespectful bs (performAll as h) (controls ++ allControls as h) := by
  induction as generalizing h controls with
  | nil => simp [AllRespectful, allControls, performAll]
  | cons a as ih =>
    rw [List.cons_append, AllRespectful, ih, AllRespectful, allControls, and_assoc,
      List.append_assoc]
    rfl

end Action

/-! ## §2 The invariant -/

namespace Document

variable {d d' : Document} {x : NodeId}

theorem Passes.overlays (hw : d.WellFormed) (h : Passes d d') : d.Overlays d' := by
  induction h with
  | refl => exact .refl hw
  | tail _ h ih =>
    cases h with
    | same hs => exact ih.trans (overlays_of_sameArena ih.wellFormed hs)
    | pass clipboard => exact ih.trans (overlays_enhance ih.wellFormed clipboard)

/-- Passes give listeners to nothing but the controls that they make, and these copy for
themselves. -/
theorem Passes.listeners (hw : d.WellFormed) (h : Passes d d') {l : NodeId × Listener}
    (hl : l ∈ d'.listeners) : l ∈ d.listeners ∨
      (d.contains l.1 = false ∧ ∃ block clipboard, l.2 = .copyBlock block l.1 clipboard) := by
  induction h with
  | refl => exact .inl hl
  | @tail d₂ d₃ h₂ h ih =>
    have ho := Passes.overlays hw h₂
    cases h with
    | same hs => exact ih (hs.listeners ▸ hl)
    | pass clipboard =>
      obtain ⟨os, hp⟩ := enhance_progress ho.wellFormed clipboard
      rw [hp.enhanced.listeners, List.mem_append] at hl
      rcases hl with hl | hl
      · exact ih hl
      · obtain ⟨o, hm, rfl⟩ := List.mem_map.mp hl
        refine .inr ⟨?_, o.code, clipboard, rfl⟩
        have hnew := hp.enhanced.made_fresh o hm o.button (by simp [Outfit.made])
        rw [Bool.eq_false_iff] at hnew ⊢
        exact fun hlive => hnew (ho.live _ hlive)

/-- Passes leave the texts that there are where they are. -/
theorem Passes.of_text (hw : d.WellFormed) (h : Passes d d') {s : String} (hx : d.contains x)
    (hk : d'.kind? x = some (.text s)) :
    d'.parent? x = d.parent? x ∧ d.kind? x = some (.text s) := by
  induction h with
  | refl => exact ⟨rfl, hk⟩
  | @tail d₂ d₃ h₂ h ih =>
    have ho := Passes.overlays hw h₂
    cases h with
    | same hs =>
      obtain ⟨-, hkind, hparent, -⟩ := lookups_congr hs.slots
      rw [hkind] at hk
      rw [hparent]
      exact ih hk
    | pass clipboard =>
      obtain ⟨hp, hk₂⟩ := enhance_of_text ho.wellFormed (ho.live x hx) hk
      rw [hp]
      exact ih hk₂

end Document

namespace Host

open CopyControl.Action

variable {h h' : Host} {a : Action} {controls : List NodeId} {c : NodeId}

/-- Every control that is still there shows a label, and work of clicks is aimed at controls
only. -/
structure Mannered (h : Host) (controls : List NodeId) : Prop where
  wellFormed : h.document.WellFormed
  labelled : ∀ c ∈ controls, h.document.Labelled c
  listeners : ∀ x block c clipboard,
    (x, .copyBlock block c clipboard) ∈ h.document.listeners → c ∈ controls
  targets : ∀ c, h.Targets c → c ∈ controls
  awake : h.Awake

/-- The handles of controls are not given out again in the action, and none of them is the
body's. -/
structure KeepsApart (h : Host) (a : Action) (controls : List NodeId) : Prop where
  back : ∀ c ∈ controls, (a.perform h).document.contains c → h.document.contains c
  body : h.document.body ∉ controls

/-- Work is aimed at controls only, as long as all work that waits is. -/
theorem aim_mem (ht : ∀ c, h.Targets c → c ∈ controls) (ha : a.Respectful h controls)
    (hc : a.aim? h = some c) : c ∈ controls := by
  cases a with
  | handle block control clipboard =>
    obtain rfl := Option.some.inj hc
    exact ha
  | run k =>
    obtain ⟨w, hk, hw⟩ := Option.bind_eq_some_iff.mp hc
    exact ht c (.inl ⟨w, List.mem_of_getElem? hk, hw⟩)
  | operate _ | reload _ | enhance _ | flush _ | click _ | advance _ | openSession _
  | closeSession _ | abandonSession _ | markReady | setClipboard _ _ | takeNotes =>
    simp [aim?] at hc

/-- After an action all listeners copy for controls, for old ones or for those that it makes. -/
theorem listeners_perform (hw : h.document.WellFormed) (ha : a.Respectful h controls)
    (hold : ∀ x block c clipboard, (x, .copyBlock block c clipboard) ∈ h.document.listeners →
      c ∈ controls) {x block : NodeId} {clipboard : String}
    (hl : (x, .copyBlock block c clipboard) ∈ (a.perform h).document.listeners) :
    c ∈ controls ++ a.newControls h := by
  obtain ⟨d, hd⟩ : ∃ d, (a.perform h).document = d := ⟨_, rfl⟩
  have hacts := h.acts_perform a
  rw [hd] at hacts
  have hold := hold x block c clipboard
  have hnew := hl
  rw [hd] at hl
  cases hacts with
  | operate o =>
    rcases listeners_run hw o hl with hl | rfl
    · exact List.mem_append_left _ (hold hl)
    · exact List.mem_append_left _ (ha.2 c rfl)
  | reload events =>
    have hkeep := Markdown.keepsListeners_replaceBody hw events
    exact List.mem_append_left _ (hold (hkeep.subset hl))
  | @label _ control _ l =>
    have hkeep := keepsListeners_setText hw control l.text
    exact List.mem_append_left _ (hold (hkeep.subset hl))
  | passes hpass hp =>
    rcases Passes.listeners hw hp hl with hl | ⟨hdead, b, s, heq⟩
    · exact List.mem_append_left _ (hold hl)
    · obtain ⟨-, rfl, -⟩ := Listener.copyBlock.inj heq
      refine List.mem_append_right _ ?_
      rw [newControls, if_pos hpass]
      exact List.mem_filter.mpr ⟨List.mem_map.mpr ⟨_, hnew, rfl⟩, by simp [hdead]⟩
  | same he => exact List.mem_append_left _ (hold (he.listeners ▸ hl))

/-- And so all work is aimed at controls. -/
theorem targets_perform (ht : ∀ c, h.Targets c → c ∈ controls) (ha : a.Respectful h controls)
    (hold : ∀ x block c clipboard, (x, .copyBlock block c clipboard) ∈ h.document.listeners →
      c ∈ controls) (hc : (a.perform h).Targets c) : c ∈ controls := by
  rcases targets_of_perform hc with hc | hc | ⟨x, block, clipboard, hl⟩
  · exact ht c hc
  · exact aim_mem ht ha hc
  · exact hold x block c clipboard hl

section perform
variable (hm : h.Mannered controls) (ha : a.Respectful h controls)
  (hk : h.KeepsApart a controls)
include hm ha hk

/-- A control that is there before and after an action shows a label after it. -/
theorem Mannered.labelled_perform (hc : c ∈ controls) : (a.perform h).document.Labelled c := by
  intro hlive
  obtain ⟨s, hs⟩ := hm.labelled c hc (hk.back c hc hlive)
  obtain ⟨d, hd⟩ : ∃ d, (a.perform h).document = d := ⟨_, rfl⟩
  have hacts := h.acts_perform a
  rw [hd] at hacts hlive ⊢
  cases hacts with
  | operate o =>
    rw [← hd] at hlive ⊢
    exact ⟨s, hs.congr ((ha.1 c hc).live hlive)⟩
  | reload events =>
    have hne : c ≠ h.document.body := fun heq => hk.body (heq ▸ hc)
    exact ⟨s, hs.congr (sameInside_replaceBody hm.wellFormed events hs.contains hne hlive)⟩
  | @label _ control _ l =>
    by_cases hcc : c = control
    · subst hcc
      exact ⟨l, hs.setLabel l⟩
    · exact ⟨s, hs.setLabel_of_ne hm.wellFormed hcc l hlive⟩
  | passes _ hp => exact ⟨s, (Passes.overlays hm.wellFormed hp).shows c s hs⟩
  | same he => exact ⟨s, (overlays_of_sameArena hm.wellFormed he).shows c s hs⟩

/-- What is inside a control stays there, or goes with the control. -/
theorem Mannered.inside_perform {x : NodeId} {s : String}
    (hx : (a.perform h).document.kind? x = some (.text s))
    (hin : h.document.inside controls x) : (a.perform h).document.inside controls x := by
  obtain ⟨c, hc, hp⟩ := inside_iff.mp hin
  refine inside_iff.mpr ⟨c, hc, ?_⟩
  obtain ⟨d, hd⟩ : ∃ d, (a.perform h).document = d := ⟨_, rfl⟩
  have hacts := h.acts_perform a
  have hw' := wellFormed_perform hm.wellFormed a
  rw [hd] at hacts hx hw' ⊢
  cases hacts with
  | operate o =>
    have hleaves := ha.1 c hc
    rw [hd] at hleaves
    have hmem : x ∈ h.document.children c := (hm.wellFormed.parent_iff x c).mp hp
    by_cases hlive : (o.run h.document).contains c
    · refine (hw'.parent_iff x c).mpr ?_
      rwa [(hleaves.live hlive).1]
    · have hdead := hleaves.dead (Bool.eq_false_iff.mpr hlive) x hmem
      simp [contains_of_kind? hx] at hdead
  | reload events =>
    have hne : c ≠ h.document.body := fun heq => hk.body (heq ▸ hc)
    exact Markdown.parent?_replaceBody hm.wellFormed events hp hne (contains_of_kind? hx)
  | label haim l =>
    have hcontrol := aim_mem hm.targets ha haim
    have hlabel := (setLabel_quiet hm.wellFormed (hm.labelled _ hcontrol) hcontrol l).1
    rw [(lookups_eq_of_unlabelled hlabel).1, hp]
  | passes _ hp' =>
    rw [(Passes.of_text hm.wellFormed hp' (contains_of_parent? hp) hx).1, hp]
  | same he => rw [(lookups_congr he.slots).2.2.1, hp]

theorem Mannered.perform : (a.perform h).Mannered (controls ++ a.newControls h) := by
  refine ⟨wellFormed_perform hm.wellFormed a, fun c hc => ?_,
    fun x block c clipboard hl => listeners_perform hm.wellFormed ha hm.listeners hl,
    fun c hc => List.mem_append_left _ (targets_perform hm.targets ha hm.listeners hc),
    hm.awake.perform a⟩
  rcases List.mem_append.mp hc with hc | hc
  · exact hm.labelled_perform ha hk hc
  · unfold newControls at hc
    split at hc
    · rename_i hpass
      obtain ⟨hc, hnew⟩ := List.mem_filter.mp hc
      obtain ⟨l, hl, rfl⟩ := List.mem_map.mp hc
      have hp := passes_of_runsPasses hpass
      rcases (Passes.overlays hm.wellFormed hp).listeners l hl with hl | ⟨-, hs⟩
      · simp [hm.wellFormed.listeners_live l hl] at hnew
      · exact fun _ => ⟨.copy, hs⟩
    · simp at hc

end perform

/-! ### One action on both sides -/

/-- What is left out of the run is heard by nobody. -/
theorem Mannered.hushed (hm : h.Mannered controls) (ha : a.Respectful h controls)
    (hnone : a.withoutClicks h = []) : h.Hushed controls (a.perform h) := by
  cases a with
  | click x =>
    refine ⟨rfl, rfl, ?_, fun _ => .inl⟩
    have hworks : ((h.document.clickListeners x).map (workOf h.clicks)).filter Work.isSessions =
        [] := by
      rw [List.filter_eq_nil_iff]
      intro w hw
      obtain ⟨l, -, rfl⟩ := List.mem_map.mp hw
      cases l <;> simp [workOf, Work.isSessions]
    simp [Action.perform, dispatchClick, List.filter_append, hworks]
  | handle block control clipboard =>
    have hc : control ∈ controls := ha
    exact hushed_beginClick hm.wellFormed hm.awake hc (hm.labelled _ hc) _ block clipboard
  | run k =>
    cases hk : h.queue[k]? with
    | none =>
      rw [perform_run_of_none hk]
      exact hushed_of_eq rfl rfl rfl rfl
    | some w =>
      have hw : w.isSessions = false := by
        cases hw : w.isSessions with
        | false => rfl
        | true => simp [withoutClicks, hk, hw] at hnone
      have hmem : ∀ c, w.control? = some c → c ∈ controls := fun c hc =>
        hm.targets c (.inl ⟨w, List.mem_of_getElem? hk, hc⟩)
      let h₁ : Host := { h with queue := h.queue.eraseIdx k }
      have hrest : h.Hushed controls h₁ :=
        ⟨rfl, rfl, filter_eraseIdx_of_neg hk hw, fun _ => .inl⟩
      have hw₁ : h₁.document.WellFormed := hm.wellFormed
      have hlabelled : ∀ c ∈ controls, h₁.document.Labelled c := hm.labelled
      have hawake : h₁.Awake := hm.awake.keep ⟨rfl, rfl⟩ rfl fun i hi =>
        mem_eraseIdx_of_ne hk hi fun heq => by simp [← heq, Work.isSessions] at hw
      rw [perform_run hk]
      refine hrest.trans ?_
      cases w with
      | click n block control clipboard =>
        have hc := hmem control rfl
        exact hushed_beginClick hw₁ hawake hc (hlabelled _ hc) n block clipboard
      | write n block control clipboard text =>
        have hc := hmem control rfl
        exact hushed_write hw₁ hawake hc (hlabelled _ hc) block clipboard text
      | note n text => exact hushed_of_eq rfl rfl rfl rfl
      | armRevert control => exact hushed_setTimer h₁ _ rfl
      | revert control =>
        have hc := hmem control rfl
        exact hushed_showLabel hw₁ hawake hc (hlabelled _ hc) .copy
      | attach _ | observe _ => simp [Work.isSessions] at hw
  | operate _ | reload _ | enhance _ | flush _ | advance _ | openSession _ | closeSession _
  | abandonSession _ | markReady | setClipboard _ _ | takeNotes =>
    simp [withoutClicks] at hnone

/-- Passes are left in. -/
theorem newControls_of_withoutClicks (hnone : a.withoutClicks h = []) : a.newControls h = [] := by
  have hp : a.runsPasses h = false := by
    cases a with
    | run k =>
      cases hk : h.queue[k]? with
      | none => simp [runsPasses, hk]
      | some w => cases w <;> simp_all [runsPasses, withoutClicks, Work.isSessions]
    | enhance _ | flush _ => simp [withoutClicks] at hnone
    | _ => rfl
  simp [newControls, hp]

/-- The runs still echo each other after an action, apart from the labels of the controls that there
are then. -/
theorem Mannered.echo (hm : h.Mannered controls) (ha : a.Respectful h controls)
    (hk : h.KeepsApart a controls) (he : h.Echo (h.document.inside controls) h') :
    (a.perform h).Echo ((a.perform h).document.inside (controls ++ a.newControls h))
      (performAll (a.withoutClicks h) h') := by
  by_cases hnone : a.withoutClicks h = []
  · have hh := hm.hushed ha hnone
    rw [newControls_of_withoutClicks hnone, List.append_nil, hnone]
    refine ⟨blanked_eq_of_unlabelled ?_, ?_, ?_, he.timers, fun τ hτ => ?_⟩
    · exact (unlabelled_eq_of_blanked he.document fun _ _ _ => id).trans hh.document.symm
    · exact he.sessions.trans hh.sessions.symm
    · exact he.queue.trans hh.queue.symm
    · exact (hh.timers τ hτ).elim (he.waiting τ) id
  · have he' := he.perform hnone
    refine ⟨blanked_eq_of_unlabelled ?_, he'.sessions, he'.queue, he'.timers, he'.waiting⟩
    exact unlabelled_eq_of_blanked he'.document fun x s hx hin =>
      inside_mono (List.subset_append_left ..) (hm.inside_perform ha hk hx hin)

/-! ## §3 Whole runs -/

/-- A control that a run has made was not there before some action of the run, and was there right
after it. -/
theorem mem_allControls (hw : h.document.WellFormed) {as : List Action}
    (hc : c ∈ allControls as h) :
    ∃ bs a cs, as = bs ++ a :: cs ∧ (performAll bs h).document.contains c = false ∧
      (performAll (bs ++ [a]) h).document.contains c := by
  induction as generalizing h with
  | nil => simp [allControls] at hc
  | cons a as ih =>
    have hw' := wellFormed_perform hw a
    rcases List.mem_append.mp hc with hc | hc
    · unfold newControls at hc
      split at hc
      · obtain ⟨hc, hnew⟩ := List.mem_filter.mp hc
        obtain ⟨l, hl, rfl⟩ := List.mem_map.mp hc
        refine ⟨[], a, as, rfl, ?_, hw'.listeners_live l hl⟩
        simpa [performAll] using hnew
      · simp at hc
    · obtain ⟨bs, b, cs, rfl, hdead, hlive⟩ := ih hw' hc
      exact ⟨a :: bs, b, cs, rfl, hdead, hlive⟩

/-- In a run in which no handle is given out twice, controls keep apart. -/
theorem keepsApart_of_timesEmptied (hw : h.document.WellFormed)
    (hb : h.document.contains h.document.body) {as : List Action} {a : Action}
    (hn : ∀ i, timesEmptied i (as ++ [a]) h < UInt32.size) :
    (performAll as h).KeepsApart a (allControls as h) where
  back c hc hlive := by
    obtain ⟨bs, b, cs, rfl, -, hmade⟩ := mem_allControls hw hc
    by_contra hdead
    have hgone := neverBack_of_timesEmptied hw (hn c.index) (bs ++ [b]) cs [a] [] (by simp) hmade
      (by simpa using hdead)
    rw [List.append_assoc bs, List.singleton_append, performAll_append] at hgone
    simp [performAll] at hlive hgone
    simp [hlive] at hgone
  body := by
    have hbody : (performAll as h).document.body = h.document.body :=
      congrArg Prod.snd (landmarks_performAll hw as)
    rw [hbody]
    intro hc
    obtain ⟨bs, b, cs, rfl, hdead, hlive⟩ := mem_allControls hw hc
    have hgone := neverBack_of_timesEmptied hw (hn h.document.body.index) [] bs [b] (cs ++ [a])
      (by simp) hb hdead
    simp [hlive] at hgone

theorem mannered_start {d : Document} (hw : d.WellFormed)
    (hl : ∀ x block c clipboard, (x, .copyBlock block c clipboard) ∉ d.listeners) :
    (start d).Mannered [] where
  wellFormed := hw
  labelled := by simp
  listeners x block c clipboard hm := absurd hm (hl x block c clipboard)
  targets c hc := by simp [Targets, start] at hc
  awake := awake_start d

theorem echo_start (d : Document) (S : NodeId → Bool) : (start d).Echo S (start d) :=
  ⟨rfl, rfl, rfl, rfl, by simp [start]⟩

section runs
variable {d : Document} (hw : d.WellFormed) (hb : d.contains d.body)
  (hl : ∀ x block c clipboard, (x, .copyBlock block c clipboard) ∉ d.listeners)
include hw hb hl

/-- A run and the run without its clicks echo each other all the time. -/
theorem echo_performAll {as : List Action} (hn : ∀ i, timesEmptied i as (start d) < UInt32.size)
    (hr : AllRespectful as (start d) []) :
    (performAll as (start d)).Mannered (allControls as (start d)) ∧
      (performAll as (start d)).Echo
        ((performAll as (start d)).document.inside (allControls as (start d)))
        (performAll (eraseClicks as (start d)) (start d)) := by
  induction as using List.reverseRecOn with
  | nil => exact ⟨mannered_start hw hl, echo_start d _⟩
  | append_singleton as a ih =>
    obtain ⟨hrs, hra, -⟩ := allRespectful_append.mp hr
    have hk := keepsApart_of_timesEmptied (h := start d) hw hb hn
    obtain ⟨hm, he⟩ := ih (fun i => by have := hn i; rw [timesEmptied_append] at this; omega) hrs
    rw [List.nil_append] at hra
    rw [allControls_append, eraseClicks_append, performAll_append, performAll_append]
    simp only [allControls, eraseClicks, List.append_nil]
    exact ⟨hm.perform hra hk, hm.echo hra hk he⟩

/-- As long as the inside of controls is left to clicks, and no slot is emptied `2 ^ 32` times, a
run and the same run without its clicks have the same documents at all times, labels apart: the same
nodes under the same handles, the same listeners, and the same records for every observer. Once the
controls are gone, the documents are the same altogether, whatever is still under way. -/
theorem clicks_leave_no_trace (as : List Action)
    (hn : ∀ i, timesEmptied i as (start d) < UInt32.size)
    (hr : AllRespectful as (start d) []) (bs : List Action) (hbs : bs <+: as) :
    let clicked := performAll bs (start d)
    let unclicked := performAll (eraseClicks bs (start d)) (start d)
    let controls := allControls bs (start d)
    unclicked.document.unlabelled controls = clicked.document.unlabelled controls ∧
      (∀ o, unclicked.document.queued o = clicked.document.queued o) ∧
      unclicked.sessions = clicked.sessions ∧
      unclicked.queue = clicked.queue.filter Work.isSessions ∧
      ((∀ c ∈ controls, clicked.document.contains c = false) →
        unclicked.document = clicked.document) := by
  obtain ⟨cs, rfl⟩ := hbs
  obtain ⟨hrs, -⟩ := allRespectful_append.mp hr
  have hns : ∀ i, timesEmptied i bs (start d) < UInt32.size := fun i => by
    have := hn i
    rw [timesEmptied_append] at this
    omega
  obtain ⟨hm, he⟩ := echo_performAll hw hb hl hns hrs
  intro clicked unclicked controls
  have hd : unclicked.document.unlabelled controls = clicked.document.unlabelled controls :=
    unlabelled_eq_of_blanked he.document fun _ _ _ => id
  refine ⟨hd, fun o => he.congr (f := (·.queued o)) fun _ => rfl, he.sessions, he.queue,
    fun hdead => ?_⟩
  have hlive : unclicked.document.contains = clicked.document.contains :=
    he.congr fun _ => contains_blanked ..
  have hw' : unclicked.document.WellFormed := wellFormed_performAll hw _
  rwa [unlabelled_of_dead hw' fun c hc => by rw [hlive]; exact hdead c hc,
    unlabelled_of_dead hm.wellFormed hdead] at hd

end runs

/-- A control is clicked and goes with the old body. When its revert is due, its slot is in use
again. -/
def lateRevert : List Action :=
  oneBlock.map .operate ++ [.enhance "", .click ⟨5, 0⟩, .run 0, .reload [],
    .operate (.createElement "p"), .operate (.createElement "p"), .run 0, .advance 1500, .run 0]

theorem clicks_leave_no_trace_lateRevert :
    AllRespectful lateRevert (start new) [] ∧
      (performAll lateRevert (start new)).document.contains ⟨5, 1⟩ ∧
      (performAll (lateRevert.take 12) (start new)).queue = [.revert ⟨5, 0⟩] ∧
      (performAll (eraseClicks lateRevert (start new)) (start new)).document =
        (performAll lateRevert (start new)).document := by
  have hr : AllRespectful lateRevert (start new) [] := by decide +kernel
  have hn : ∀ i, timesEmptied i lateRevert (start new) < UInt32.size := fun i =>
    Nat.lt_of_le_of_lt (timesEmptied_le_length i lateRevert _) (by decide)
  have hl : ∀ x block c clipboard, (x, .copyBlock block c clipboard) ∉ new.listeners := by
    simp [new]
  have h := clicks_leave_no_trace wellFormed_new (by decide) hl lateRevert hn hr lateRevert
    (List.prefix_refl _)
  exact ⟨hr, by decide +kernel, by decide +kernel, h.2.2.2.2 (by decide +kernel)⟩

end Host

end CopyControl
