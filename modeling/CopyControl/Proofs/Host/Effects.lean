import CopyControl.Proofs.Host.Actions
import CopyControl.Proofs.Markdown.Fragment

/-!
What an action does to the document.

An action runs one operation, puts a new body in place, shows a label on a control, runs passes, or
leaves the arena alone: `acts_perform` says so once, and what is claimed of every action is shown
for these. The document never does more than grow and then change once (`works_perform`), so a
slot's generation counts the actions that have emptied it (`generation?_performAll`), and a handle
whose node has gone stays dead for as long as the count has not come round (`dead_of_dead`).

* §1 the effects
* §2 growing and one change
* §3 how often a slot has been emptied
-/

namespace CopyControl

open Relation Document

/-! ## §1 The effects -/

/-- A pass, or a step that leaves the arena as it is. -/
inductive Document.PassStep (d : Document) : Document → Prop
  | same {d' : Document} (h : d.SameArena d') : PassStep d d'
  | pass (clipboard : String) : PassStep d (d.enhance clipboard).document

/-- Any number of passes, with changes of observers and of the ready state in between. -/
abbrev Document.Passes : Document → Document → Prop :=
  ReflTransGen PassStep

/-- Passes for the clipboard, if there is one. -/
abbrev Document.PassesFor (clipboard : Option String) : Document → Document → Prop :=
  ReflTransGen fun d d' => d.SameArena d' ∨ ∃ c ∈ clipboard, d' = (d.enhance c).document

theorem Document.PassesFor.passes {clipboard : Option String} {d d' : Document}
    (h : PassesFor clipboard d d') : Passes d d' := by
  refine h.lift id fun d d' hstep => ?_
  rcases hstep with h | ⟨c, -, rfl⟩
  · exact .same h
  · exact .pass c

/-- The clipboard that a session's passes are for. -/
def Session.clipboard? : Session → Option String
  | .waiting clipboard _ => some clipboard
  | .observing clipboard _ => some clipboard
  | .closed => none

def Host.sessionClipboard? (h : Host) (i : Nat) : Option String :=
  (h.sessions[i]?).bind Session.clipboard?

/-- The clipboard of the injector that runs the passes of an action. -/
def Action.injector? : Action → Host → Option String
  | .enhance clipboard, _ => some clipboard
  | .flush i, h => h.sessionClipboard? i
  | .run k, h =>
    match h.queue[k]? with
    | some (.attach i) => h.sessionClipboard? i
    | some (.observe i) => h.sessionClipboard? i
    | _ => none
  | _, _ => none

/-- The node on which the action may show a label. -/
def Action.aim? : Action → Host → Option NodeId
  | .handle _ control _, _ => some control
  | .run k, h => (h.queue[k]?).bind Work.control?
  | _, _ => none

namespace Host

variable {h h' : Host} {a : Action} {control : NodeId}

/-- What an action can do to the document of a host. -/
inductive Acts (h : Host) : Action → Document → Prop
  | operate (o : Operation) : Acts h (.operate o) (o.run h.document)
  | reload (events : List Markdown.Event) :
      Acts h (.reload events) ((Markdown.replaceBody events).apply h.document).2
  | label {a : Action} {control : NodeId} (ha : a.aim? h = some control) (l : ControlLabel) :
      Acts h a ((setLabel control l).apply h.document).2
  | passes {a : Action} {d : Document} (ha : a.runsPasses h) (hd : Passes h.document d) :
      Acts h a d
  | same {a : Action} {d : Document} (hd : h.document.SameArena d) : Acts h a d

theorem acts_of_eq {d : Document} (hd : d = h.document) : h.Acts a d :=
  .same (hd ▸ ⟨rfl, rfl, rfl, rfl⟩)

theorem passes_enhance (h : Host) (clipboard : String) :
    PassesFor clipboard h.document (h.enhance clipboard).2.document := by
  rw [enhance_document]
  exact .single (.inr ⟨clipboard, rfl, rfl⟩)

theorem passes_handleBatches (h : Host) (clipboard : String) (o : ObserverId) (n : Nat) :
    PassesFor clipboard h.document (h.handleBatches clipboard o n).document := by
  induction n generalizing h with
  | zero => exact .refl
  | succ n ih =>
    unfold handleBatches
    split
    · exact .refl
    · exact .refl
    · rename_i records d heq
      have hs : h.document.SameArena d := by
        have := sameArena_run h.document (o := .nextBatch o) id
        rwa [Operation.run, heq] at this
      let h₁ : Host := { h with document := d }
      have hrest := ih (((h₁.record (batch records.length)).pass clipboard).2)
      exact .head (.inl hs) (.head (.inr ⟨clipboard, rfl, rfl⟩) hrest)

theorem passes_runObserver (h : Host) (i : Nat) :
    PassesFor (h.sessionClipboard? i) h.document (h.runObserver i).document := by
  unfold runObserver
  split
  · rename_i hi
    rw [(wake_spec _).1, sessionClipboard?, hi]
    exact passes_handleBatches _ _ _ _
  · exact .refl

theorem sameArena_observeBody (h : Host) (i : Nat) (clipboard : String) (wanted : Bool) :
    h.document.SameArena (h.observeBody i clipboard wanted).document := by
  unfold observeBody
  dsimp only
  split
  · exact ⟨rfl, rfl, rfl, rfl⟩
  · exact ⟨rfl, rfl, rfl, rfl⟩

theorem passes_attach (h : Host) (i : Nat) :
    PassesFor (h.sessionClipboard? i) h.document (h.attach i).document := by
  cases hi : h.sessions[i]? with
  | none =>
    rw [attach, hi]
  | some s =>
    cases s with
    | waiting clipboard wanted =>
      rw [attach_of_waiting hi, sessionClipboard?, hi]
      split
      · have hbody := sameArena_observeBody
          ((h.enhance clipboard).2.record (attached (h.enhance clipboard).1)) i clipboard wanted
        exact (passes_enhance h clipboard).tail (.inl hbody)
      · exact .refl
    | observing _ _ | closed =>
      rw [attach, hi]

theorem sameArena_closeSession (h : Host) (i : Nat) :
    h.document.SameArena (h.closeSession i).document := by
  unfold closeSession
  split <;> exact ⟨rfl, rfl, rfl, rfl⟩

theorem sameArena_abandonSession (h : Host) (i : Nat) :
    h.document.SameArena (h.abandonSession i).document := by
  unfold abandonSession
  split
  · exact ⟨rfl, rfl, rfl, rfl⟩
  · exact sameArena_closeSession h i

theorem passes_flushSession (h : Host) (i : Nat) :
    PassesFor (h.sessionClipboard? i) h.document (h.flushSession i).2.document := by
  unfold flushSession
  split
  · rename_i hi
    rw [sessionClipboard?, hi]
    exact passes_enhance h _
  · exact .refl

/-- An action that may run passes runs them for its injector's clipboard. -/
theorem passesFor_perform (hp : a.runsPasses h) :
    PassesFor (a.injector? h) h.document (a.perform h).document := by
  cases a with
  | enhance clipboard => exact passes_enhance h clipboard
  | flush i => exact passes_flushSession h i
  | run k =>
    cases hk : h.queue[k]? with
    | none => simp [Action.runsPasses, hk] at hp
    | some w =>
      rw [Action.perform_run hk]
      cases w with
      | attach i =>
        rw [Action.injector?, hk]
        exact passes_attach { h with queue := h.queue.eraseIdx k } i
      | observe i =>
        rw [Action.injector?, hk]
        exact passes_runObserver { h with queue := h.queue.eraseIdx k } i
      | click _ _ _ _ | write _ _ _ _ _ | note _ _ | armRevert _ | revert _ =>
        simp [Action.runsPasses, hk] at hp
  | operate _ | reload _ | click _ | handle _ _ _ | advance _ | openSession _ | closeSession _
  | abandonSession _ | markReady | setClipboard _ _ | takeNotes => simp [Action.runsPasses] at hp

theorem passes_of_runsPasses (hp : a.runsPasses h) :
    Passes h.document (a.perform h).document :=
  (passesFor_perform hp).passes

/-- Writing to a clipboard does nothing to the document but show what came of it. -/
theorem document_write (hd : h'.document = h.document) (block control : NodeId)
    (clipboard text : String) :
    (h'.write block control clipboard text).2.document =
      ((setLabel control (.ofOutcome (h'.write block control clipboard text).1)).apply
        h.document).2 := by
  obtain ⟨h₁, hd₁, -, -, heq⟩ := h'.write_eq block control clipboard text
  rw [heq, enqueue, (showLabel_spec h₁ control _).1, hd₁, hd]

/-- The text of a block is written at once, or a timer is set. -/
theorem document_beginClick (hd : h'.document = h.document) (n : Nat) (block control : NodeId)
    (clipboard : String) :
    (h'.beginClick n block control clipboard).document = h.document ∨
      ∃ l, (h'.beginClick n block control clipboard).document =
        ((setLabel control l).apply h.document).2 := by
  by_cases hdelay : (h'.clipboard clipboard).delay = 0
  · rw [beginClick_of_prompt hdelay]
    exact .inr ⟨_, document_write hd block control clipboard _⟩
  · rw [beginClick_of_slow hdelay, setTimer, hd]
    exact .inl rfl

/-- An action that is aimed at a control shows a label on it at most. -/
theorem document_of_aim (ha : a.aim? h = some control) :
    (a.perform h).document = h.document ∨
      ∃ l, (a.perform h).document = ((setLabel control l).apply h.document).2 := by
  cases a with
  | handle block c clipboard =>
    obtain rfl := Option.some.inj ha
    exact document_beginClick rfl h.clicks block c clipboard
  | run k =>
    cases hk : h.queue[k]? with
    | none => simp [Action.aim?, hk] at ha
    | some w =>
      rw [Action.aim?, hk, Option.bind_some] at ha
      rw [Action.perform_run hk]
      let h₁ : Host := { h with queue := h.queue.eraseIdx k }
      have hd : h₁.document = h.document := rfl
      cases w with
      | click n block c clipboard =>
        obtain rfl := Option.some.inj ha
        exact document_beginClick hd n block c clipboard
      | write n block c clipboard text =>
        obtain rfl := Option.some.inj ha
        exact .inr ⟨_, document_write hd block c clipboard text⟩
      | armRevert c => exact .inl rfl
      | revert c =>
        obtain rfl := Option.some.inj ha
        exact .inr ⟨.copy, (showLabel_spec h₁ c .copy).1⟩
      | note _ _ | attach _ | observe _ => simp [Work.control?] at ha
  | operate _ | reload _ | enhance _ | flush _ | click _ | advance _ | openSession _
  | closeSession _ | abandonSession _ | markReady | setClipboard _ _ | takeNotes =>
    simp [Action.aim?] at ha

theorem acts_of_aim (ha : a.aim? h = some control) : h.Acts a (a.perform h).document := by
  rcases document_of_aim ha with hd | ⟨l, hd⟩
  · exact acts_of_eq hd
  · rw [hd]
    exact .label ha l

/-- An action runs an operation, puts a new body in place, shows a label, runs passes, or leaves the
arena alone. -/
theorem acts_perform (h : Host) (a : Action) : h.Acts a (a.perform h).document := by
  cases a with
  | operate o =>
    rw [Action.perform, (wake_spec _).1]
    exact .operate o
  | reload events =>
    rw [Action.perform, (edit_spec h _).1]
    exact .reload events
  | enhance _ | flush _ => exact .passes rfl (passes_of_runsPasses rfl)
  | handle block control clipboard => exact acts_of_aim rfl
  | run k =>
    cases hk : h.queue[k]? with
    | none => exact acts_of_eq (by rw [Action.perform_run_of_none hk])
    | some w =>
      cases w with
      | click _ _ c _ | write _ _ c _ _ | armRevert c | revert c =>
        have ha : (Action.run k).aim? h = some c := by simp [Action.aim?, hk, Work.control?]
        exact acts_of_aim ha
      | note _ _ => exact acts_of_eq (by rw [Action.perform_run hk]; rfl)
      | attach _ | observe _ =>
        have hp : (Action.run k).runsPasses h := by simp [Action.runsPasses, hk]
        exact .passes hp (passes_of_runsPasses hp)
  | closeSession i => exact .same (sameArena_closeSession h i)
  | abandonSession i => exact .same (sameArena_abandonSession h i)
  | markReady =>
    rw [Action.perform, (markReady_spec h).1]
    exact .same ⟨rfl, rfl, rfl, rfl⟩
  | click _ | advance _ | openSession _ | setClipboard _ _ | takeNotes => exact acts_of_eq rfl

end Host

/-! ## §2 Growing and one change -/

namespace Document

variable {d d' : Document}

theorem PassStep.grows (hw : d.WellFormed) (h : d.PassStep d') : Grows d d' := by
  cases h with
  | same h => exact h.grows
  | pass clipboard => exact (adds_enhance hw clipboard).lift id fun _ _ => .adds

theorem Passes.grows (hw : d.WellFormed) (h : Passes d d') : Grows d d' := by
  induction h with
  | refl => exact .refl
  | tail _ h ih => exact ih.trans (h.grows (ih.wellFormed hw))

theorem works_replaceBody (hw : d.WellFormed) (events : List Markdown.Event) :
    d.Works ((Markdown.replaceBody events).apply d).2 := by
  have hg := (Markdown.constructive_buildFragment events).grows hw
  rw [Markdown.replaceBody, Edit.apply_bind]
  cases hr : (Markdown.buildFragment events).apply d with
  | mk r d₁ =>
    rw [hr] at hg
    cases r with
    | error x => exact .grow hg
    | ok nodes =>
      have hm := makes_replaceChildren (d := d₁) d₁.body nodes
      dsimp only
      rw [Edit.apply_get_bind, Edit.apply_bind]
      cases hc : (replaceChildren d₁.body nodes).apply d₁ with
      | mk r' d₂ =>
        rw [hc] at hm
        cases r' <;> exact hg.works hm.works

end Document

namespace Host

variable {h : Host} {a : Action} {as : List Action}

theorem Acts.works {d : Document} (hw : h.document.WellFormed) (ha : h.Acts a d) :
    h.document.Works d := by
  cases ha with
  | operate o => exact works_run hw o
  | reload events => exact works_replaceBody hw events
  | label _ l => exact (makes_setText hw _ _).works
  | passes _ hd => exact .grow (hd.grows hw)
  | same hd => exact .grow hd.grows

theorem works_perform (hw : h.document.WellFormed) (a : Action) :
    h.document.Works (a.perform h).document :=
  (h.acts_perform a).works hw

theorem wellFormed_perform (hw : h.document.WellFormed) (a : Action) :
    (a.perform h).document.WellFormed :=
  (works_perform hw a).wellFormed hw

theorem wellFormed_performAll (hw : h.document.WellFormed) (as : List Action) :
    (Action.performAll as h).document.WellFormed := by
  induction as generalizing h with
  | nil => exact hw
  | cons a as ih => exact ih (wellFormed_perform hw a)

theorem anchors_performAll (hw : h.document.WellFormed) (as : List Action) :
    (Action.performAll as h).document.anchors = h.document.anchors := by
  induction as generalizing h with
  | nil => rfl
  | cons a as ih => exact (ih (wellFormed_perform hw a)).trans (works_perform hw a).anchors_eq

theorem landmarks_performAll (hw : h.document.WellFormed) (as : List Action) :
    (Action.performAll as h).document.landmarks = h.document.landmarks :=
  congrArg Prod.fst (anchors_performAll hw as)

end Host

/-! ## §3 How often a slot has been emptied -/

/-- Whether the action empties the slot, which puts the slot into its next generation. -/
def Action.empties (i : Nat) (a : Action) (h : Host) : Bool :=
  (h.document.generation? i).any fun g => (a.perform h).document.generation? i ≠ some g

/-- How many actions of a run empty the slot. -/
def Action.timesEmptied (i : Nat) : List Action → Host → Nat
  | [], _ => 0
  | a :: as, h => (a.empties i h).toNat + timesEmptied i as (a.perform h)

namespace Action

theorem performAll_append (as bs : List Action) (h : Host) :
    performAll (as ++ bs) h = performAll bs (performAll as h) :=
  List.foldl_append

theorem timesEmptied_append (i : Nat) (as bs : List Action) (h : Host) :
    timesEmptied i (as ++ bs) h = timesEmptied i as h + timesEmptied i bs (performAll as h) := by
  induction as generalizing h with
  | nil => simp [timesEmptied, performAll]
  | cons a as ih =>
    rw [List.cons_append, timesEmptied, ih, timesEmptied, Nat.add_assoc]
    rfl

end Action

namespace Host

variable {h : Host} {as : List Action} {x : NodeId}

/-- A slot's generation counts how often it has been emptied. -/
theorem generation?_performAll (hw : h.document.WellFormed) (as : List Action) {i : Nat}
    {g : UInt32} (hg : h.document.generation? i = some g) :
    (Action.performAll as h).document.generation? i =
      some (g + .ofNat (Action.timesEmptied i as h)) := by
  induction as generalizing h g with
  | nil => simpa [Action.performAll, Action.timesEmptied] using hg
  | cons a as ih =>
    have hw' := wellFormed_perform hw a
    rcases (works_perform hw a).keeps_or_empties hw i with hk | he
    · have hg' := hk.generation g hg
      have := ih hw' hg'
      simpa [Action.performAll, Action.timesEmptied, Action.empties, hg, hg'] using this
    · have hg' := he g hg
      have hne : g + 1 ≠ g := by simp
      have := ih hw' hg'
      simpa [Action.performAll, Action.timesEmptied, Action.empties, hg, hg', hne,
        UInt32.add_assoc] using this

/-- Operations empty a slot as often on a host as on its document. -/
theorem timesEmptied_operate (hw : h.document.WellFormed) {i : Nat} {g : UInt32}
    (hg : h.document.generation? i = some g) (os : List Operation) :
    Action.timesEmptied i (os.map .operate) h = Document.timesEmptied i os h.document := by
  induction os generalizing h g with
  | nil => rfl
  | cons o os ih =>
    have hdoc := perform_operate o h
    obtain ⟨g', hg'⟩ : ∃ g', (o.run h.document).generation? i = some g' :=
      ⟨_, Document.generation?_runAll hw [o] hg⟩
    have hstep : ((Action.operate o).empties i h).toNat =
        if (o.run h.document).generation? i = h.document.generation? i then 0 else 1 := by
      rw [Action.empties, hdoc, hg, Option.any_some]
      split <;> simp_all
    rw [List.map_cons, Action.timesEmptied, hstep, ih (wellFormed_perform hw _) (hdoc ▸ hg'), hdoc]
    rfl

theorem keeps_of_not_empties (hw : h.document.WellFormed) {a : Action} {i : Nat}
    (hn : a.empties i h = false) : Keeps i h.document (a.perform h).document := by
  rcases (works_perform hw a).keeps_or_empties hw i with hk | he
  · exact hk
  cases hg : h.document.generation? i with
  | none =>
    refine ⟨fun g hg' => by simp [hg] at hg', fun x hx hlive => ?_⟩
    have := generation?_of_contains hlive
    rw [hx, hg] at this
    simp at this
  | some g => simp [Action.empties, hg, he g hg] at hn

theorem keeps_of_not_emptied (hw : h.document.WellFormed) {i : Nat}
    (hn : Action.timesEmptied i as h = 0) :
    Keeps i h.document (Action.performAll as h).document := by
  induction as generalizing h with
  | nil => exact .refl i _
  | cons a as ih =>
    rw [Action.timesEmptied, Nat.add_eq_zero_iff, Bool.toNat_eq_zero] at hn
    exact (keeps_of_not_empties hw hn.1).trans (ih (wellFormed_perform hw a) hn.2)

/-- A handle that names a node again, or still, names the same node all the time, as long as its
slot has been emptied fewer than `2 ^ 32` times. -/
theorem not_emptied_of_live (hw : h.document.WellFormed) (hx : h.document.contains x)
    (hx' : (Action.performAll as h).document.contains x)
    (hn : Action.timesEmptied x.index as h < UInt32.size) :
    Action.timesEmptied x.index as h = 0 := by
  have hg := generation?_performAll hw as (generation?_of_contains hx)
  rw [generation?_of_contains hx', Option.some.injEq, UInt32.left_eq_add, ← UInt32.toNat_inj,
    UInt32.toNat_ofNat', Nat.mod_eq_of_lt hn] at hg
  exact hg

/-- A handle whose node has gone stays dead, as long as its slot has been emptied fewer than
`2 ^ 32` times. -/
theorem dead_of_dead (hw : h.document.WellFormed) {bs cs : List Action}
    (hx : (Action.performAll as h).document.contains x)
    (hdead : (Action.performAll (as ++ bs) h).document.contains x = false)
    (hn : Action.timesEmptied x.index (as ++ bs ++ cs) h < UInt32.size) :
    (Action.performAll (as ++ bs ++ cs) h).document.contains x = false := by
  have hw' := wellFormed_performAll hw as
  rw [List.append_assoc, Action.timesEmptied_append] at hn
  rw [Action.performAll_append] at hdead
  rw [List.append_assoc, Action.performAll_append, Bool.eq_false_iff]
  intro hlive
  have h₀ := not_emptied_of_live hw' hx hlive (by omega)
  rw [Action.timesEmptied_append, Nat.add_eq_zero_iff] at h₀
  have hmid := ((keeps_of_not_emptied hw' h₀.1).node x rfl hx).1
  simp [hdead] at hmid

end Host

end CopyControl
