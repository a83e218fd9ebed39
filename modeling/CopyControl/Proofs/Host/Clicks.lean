import CopyControl.Proofs.Host.Echo
import CopyControl.Proofs.Host.Vigil

/-!
What clicks do to a host.

A click shows labels on its control, and a label is reported to no observer. So no session hears of
clicks, as long as each session is queued for what it has been told before (`Awake`), and all that
is left of a click are labels and work of its own (`hushed_showLabel`, `hushed_beginClick`).

* §1 sessions that are awake
* §2 the controls that work is aimed at
* §3 clicks that nobody hears
-/

namespace CopyControl

open Document

/-- Whether the session observes as `o`. -/
def Session.isFor (o : ObserverId) : Session → Bool
  | .observing _ p => p = o
  | _ => false

namespace Host

variable {h h' h'' : Host} {c control : NodeId} {i : Nat} {o : ObserverId}

/-! ## §1 Sessions that are awake -/

/-- A session is queued if its observer has been told of something. -/
def Awake (h : Host) : Prop :=
  ∀ r ∈ h.document.observers, ∀ i, h.sessionOf? r.id = some i → h.document.queued r.id ≠ [] →
    .observe i ∈ h.queue

theorem awake_start (d : Document) : (start d).Awake := by
  intro r _ i hi
  simp [sessionOf?, start] at hi

theorem awake_wake (h : Host) : h.wake.Awake := by
  obtain ⟨hd, hs, -⟩ := wake_spec h
  intro r hr i hi ht
  rw [hd] at hr ht
  rw [sessionOf?, hs, ← sessionOf?] at hi
  have hr' : ⟨r.id, r.target, r.subtree⟩ ∈ h.document.observers := hr
  exact mem_queue_foldl_wakeObserver hr' hi ht

/-- Nobody has to be woken where all are awake. -/
theorem Awake.wake_eq (ha : h.Awake) : h.wake = h := by
  suffices hfold : ∀ rs : List Registration, (∀ r ∈ rs, r ∈ h.document.observers) →
      rs.foldl wakeObserver h = h from hfold _ fun _ => id
  intro rs hrs
  induction rs with
  | nil => rfl
  | cons r rs ih =>
    have hr : h.wakeObserver r = h := by
      unfold wakeObserver
      split
      · rename_i i hi
        by_cases hq : h.document.queued r.id = []
        · simp [hq]
        · simp [ha r (hrs r List.mem_cons_self) i hi hq]
      · rfl
    rw [List.foldl_cons, hr]
    exact ih fun r hr => hrs r (List.mem_cons_of_mem _ hr)

/-- Those who are awake stay so if they are told of nothing new. -/
theorem Awake.mono (ha : h.Awake)
    (ho : ∀ r ∈ h'.document.observers, h'.document.queued r.id ≠ [] →
      r ∈ h.document.observers ∧ h'.sessionOf? r.id = h.sessionOf? r.id ∧
        h'.document.queued r.id = h.document.queued r.id)
    (hq : ∀ i, .observe i ∈ h.queue → .observe i ∈ h'.queue) : h'.Awake := by
  intro r hr i hi ht
  obtain ⟨hr', hs, hqueued⟩ := ho r hr ht
  exact hq i (ha r hr' i (hs ▸ hi) (hqueued ▸ ht))

theorem Awake.keep (ha : h.Awake) (hd : h.document.SameObservers h'.document)
    (hs : h'.sessions = h.sessions) (hq : ∀ i, .observe i ∈ h.queue → .observe i ∈ h'.queue) :
    h'.Awake := by
  refine ha.mono (fun r hr _ => ⟨hd.1 ▸ hr, by rw [sessionOf?, hs, ← sessionOf?], ?_⟩) hq
  rw [queued, hd.2, ← queued]

/-- More work does no harm. -/
theorem Awake.enqueue (ha : h.Awake) (w : Work) : (h.enqueue w).Awake :=
  ha.keep ⟨rfl, rfl⟩ rfl fun _ hi => List.mem_append_left _ hi

theorem sessionOf?_eq (h : Host) (o : ObserverId) :
    h.sessionOf? o = (h.sessions.map (·.isFor o)).findIdx? id := by
  rw [List.findIdx?_map]
  rfl

/-- A session that neither observes as `o` nor did so before. -/
theorem sessionOf?_setSession {s : Session}
    (hs : ∀ s', h.sessions[i]? = some s' → s'.isFor o = s.isFor o) :
    (h.setSession i s).sessionOf? o = h.sessionOf? o := by
  have hmap : (h.sessions.set i s).map (·.isFor o) = h.sessions.map (·.isFor o) := by
    refine List.ext_getElem? fun j => ?_
    simp only [List.getElem?_map, List.getElem?_set]
    split
    · rename_i hij
      subst hij
      split
      · rename_i hlt
        rw [List.getElem?_eq_getElem hlt, Option.map_some, Option.map_some,
          hs _ (List.getElem?_eq_getElem hlt)]
      · rename_i hge
        rw [List.getElem?_eq_none (by omega)]
    · rfl
  rw [sessionOf?_eq, setSession, hmap, ← sessionOf?_eq]

theorem Awake.beginSession (ha : h.Awake) (clipboard : String) :
    (h.beginSession clipboard).2.Awake := by
  refine ha.mono (fun r hr _ => ⟨hr, ?_, rfl⟩) fun _ hi => List.mem_append_left _ hi
  rw [sessionOf?_eq, sessionOf?_eq, Host.beginSession, Host.enqueue, List.map_append,
    List.findIdx?_append]
  simp [Session.isFor]

theorem Awake.closeSession (ha : h.Awake) (i : Nat) : (h.closeSession i).Awake := by
  unfold Host.closeSession
  split
  · rename_i clipboard o hi
    refine ha.mono (fun r hr _ => ?_) fun _ => id
    obtain ⟨hr, hne⟩ := List.mem_filter.mp hr
    refine ⟨hr, sessionOf?_setSession (h := h.disconnect o) fun s' hs' => ?_, rfl⟩
    obtain rfl := Option.some.inj (hs'.symm.trans hi)
    exact decide_eq_false (Ne.symm (of_decide_eq_true hne))
  · rename_i clipboard wanted hi
    refine ha.mono (fun r hr _ => ⟨hr, sessionOf?_setSession fun s' hs' => ?_, rfl⟩) fun _ => id
    obtain rfl := Option.some.inj (hs'.symm.trans hi)
    rfl
  · exact ha

theorem Awake.abandonSession (ha : h.Awake) (i : Nat) : (h.abandonSession i).Awake := by
  unfold Host.abandonSession
  split
  · rename_i clipboard wanted hi
    refine ha.mono (fun r hr _ => ⟨hr, sessionOf?_setSession fun s' hs' => ?_, rfl⟩) fun _ => id
    obtain rfl := Option.some.inj (hs'.symm.trans hi)
    rfl
  · exact ha.closeSession i

theorem Awake.markReady (ha : h.Awake) : h.markReady.Awake := by
  obtain ⟨hd, hs, hc⟩ := markReady_spec h
  exact ha.keep (hd ▸ ⟨rfl, rfl⟩) hs fun _ => hc.mem_queue

/-- A session that was waiting has been told of nothing. -/
theorem Awake.observeBody (ha : h.Awake) {clipboard : String} {wanted : Bool}
    (hi : h.sessions[i]? = some (.waiting clipboard wanted)) :
    (h.observeBody i clipboard wanted).Awake := by
  have hold : ∀ r, (h.document.observe h.document.body true).2.queued r ≠ [] →
      r ≠ h.document.mailboxes.size ∧
        (h.document.observe h.document.body true).2.queued r = h.document.queued r := by
    intro r hr
    simp only [Document.observe, queued, Array.getElem?_push] at hr ⊢
    split at hr
    · simp at hr
    · rename_i hne
      exact ⟨hne, by rw [if_neg hne]⟩
  have hsession : ∀ (s : Session) (r : ObserverId), s.isFor r = false →
      (Host.setSession { h with document := (h.document.observe h.document.body true).2 } i
        s).sessionOf? r = h.sessionOf? r := by
    intro s r hs
    refine sessionOf?_setSession fun s' hs' => ?_
    obtain rfl := Option.some.inj (hs'.symm.trans hi)
    exact hs.symm
  unfold Host.observeBody
  dsimp only
  split
  · refine Awake.mono ha (fun r hr ht => ?_) fun _ hi => List.mem_append_left _ hi
    obtain ⟨hne, hq⟩ := hold r.id ht
    refine ⟨?_, hsession _ _ ?_, hq⟩
    · rcases List.mem_append.mp hr with hr | hr
      · exact hr
      · exact absurd (congrArg Registration.id (List.mem_singleton.mp hr)) hne
    · exact decide_eq_false (Ne.symm hne)
  · refine Awake.mono ha (fun r hr ht => ?_) fun _ => id
    obtain ⟨hne, hq⟩ := hold r.id ht
    refine ⟨?_, hsession _ _ rfl, hq⟩
    rcases List.mem_append.mp (List.mem_of_mem_filter hr) with hr | hr
    · exact hr
    · exact absurd (congrArg Registration.id (List.mem_singleton.mp hr)) hne

theorem Awake.attach (ha : h.Awake) (i : Nat) : (h.attach i).Awake := by
  cases hi : h.sessions[i]? with
  | none =>
    rw [Host.attach, hi]
    exact ha
  | some s =>
    cases s with
    | waiting clipboard wanted =>
      rw [attach_of_waiting hi]
      split
      · have hpass : ((h.enhance clipboard).2.record (attached (h.enhance clipboard).1)).Awake :=
          (awake_wake (h.pass clipboard).2).keep ⟨rfl, rfl⟩ rfl fun _ => id
        refine hpass.observeBody ?_
        show (h.pass clipboard).2.wake.sessions[i]? = _
        rw [(wake_spec _).2.1]
        exact hi
      · exact ha
    | observing _ _ | closed =>
      rw [Host.attach, hi]
      exact ha

theorem awake_showLabel (h : Host) (control : NodeId) (l : ControlLabel) :
    (h.showLabel control l).Awake := by
  have hedit : (h.edit (setLabel control l)).2.Awake := awake_wake _
  unfold showLabel
  cases hr : h.edit (setLabel control l) with
  | mk r h' =>
    rw [hr] at hedit
    cases r with
    | ok _ => exact hedit
    | error e => exact hedit.keep ⟨rfl, rfl⟩ rfl fun _ => id

theorem awake_write (h : Host) (block control : NodeId) (clipboard text : String) :
    (h.write block control clipboard text).2.Awake := by
  obtain ⟨h₁, -, -, -, heq⟩ := write_eq h block control clipboard text
  rw [heq]
  exact (awake_showLabel h₁ control _).enqueue _

theorem Awake.beginClick (ha : h.Awake) (n : Nat) (block control : NodeId) (clipboard : String) :
    (h.beginClick n block control clipboard).Awake := by
  by_cases hd : (h.clipboard clipboard).delay = 0
  · rw [beginClick_of_prompt hd]
    exact awake_write h block control clipboard _
  · rw [beginClick_of_slow hd]
    exact ha.keep ⟨rfl, rfl⟩ rfl fun _ => id

/-- An observer that is run has nothing left to be woken for; one that does not observe has no
need. -/
theorem Awake.runObserver (ha : h.Awake) {k : Nat} (hk : h.queue[k]? = some (.observe i)) :
    (Host.runObserver { h with queue := h.queue.eraseIdx k } i).Awake := by
  unfold Host.runObserver
  split
  · exact awake_wake _
  · rename_i hi
    intro r hr j hj ht
    refine Action.mem_eraseIdx_of_ne hk (ha r hr j hj ht) fun heq => ?_
    obtain rfl := Work.observe.inj heq
    obtain ⟨hlt, hfor, -⟩ := List.findIdx?_eq_some_iff_getElem.mp hj
    cases hs : h.sessions[j] with
    | observing clipboard p => exact hi clipboard p (by rw [List.getElem?_eq_getElem hlt, hs])
    | waiting _ _ | closed => simp [hs] at hfor

theorem Awake.perform (ha : h.Awake) (a : Action) : (a.perform h).Awake := by
  cases a with
  | operate _ | reload _ | enhance _ => exact awake_wake _
  | flush i =>
    rw [Action.perform, flushSession]
    split
    · exact awake_wake _
    · exact ha
  | handle block control clipboard => exact ha.beginClick _ block control clipboard
  | run k =>
    cases hk : h.queue[k]? with
    | none =>
      rw [Action.perform_run_of_none hk]
      exact ha
    | some w =>
      rw [Action.perform_run hk]
      have htaken : (∀ i, w ≠ .observe i) → Awake { h with queue := h.queue.eraseIdx k } :=
        fun hw => ha.keep ⟨rfl, rfl⟩ rfl fun i hi =>
          Action.mem_eraseIdx_of_ne hk hi fun heq => hw i heq.symm
      cases w with
      | click n block control clipboard =>
        exact (htaken (by simp)).beginClick n block control clipboard
      | write n block control clipboard text => exact awake_write _ block control clipboard text
      | note n text => exact (htaken (by simp)).keep ⟨rfl, rfl⟩ rfl fun _ => id
      | armRevert control => exact (htaken (by simp)).keep ⟨rfl, rfl⟩ rfl fun _ => id
      | revert control => exact awake_showLabel _ control _
      | attach i => exact (htaken (by simp)).attach i
      | observe i => exact ha.runObserver hk
  | click _ | advance _ =>
    exact ha.keep ⟨rfl, rfl⟩ rfl fun _ hi => List.mem_append_left _ hi
  | openSession clipboard => exact ha.beginSession clipboard
  | closeSession i => exact ha.closeSession i
  | abandonSession i => exact ha.abandonSession i
  | markReady => exact ha.markReady
  | setClipboard _ _ | takeNotes => exact ha.keep ⟨rfl, rfl⟩ rfl fun _ => id

/-! ## §2 The controls that work is aimed at -/

/-- Some work that is queued or waits for a timer has to do with the control. -/
def Targets (h : Host) (c : NodeId) : Prop :=
  (∃ w ∈ h.queue, w.control? = some c) ∨ ∃ τ ∈ h.timers, τ.work.control? = some c

theorem Calm.targets (hc : h.Calm h') (ht : h'.Targets c) : h.Targets c := by
  obtain ⟨ws, hq, hws⟩ := hc.queue
  rcases ht with ⟨w, hw, hwc⟩ | ⟨τ, hτ, hτc⟩
  · rw [hq] at hw
    rcases List.mem_append.mp hw with hw | hw
    · exact .inl ⟨w, hw, hwc⟩
    · simp [hws w hw] at hwc
  · exact .inr ⟨τ, hc.timers ▸ hτ, hτc⟩

/-- Less work is aimed at no more controls. -/
theorem Targets.mono (ht : h'.Targets c) (hq : h'.queue ⊆ h.queue) (hτ : h'.timers ⊆ h.timers) :
    h.Targets c :=
  ht.imp (fun ⟨w, hw, hc⟩ => ⟨w, hq hw, hc⟩) fun ⟨τ, hm, hc⟩ => ⟨τ, hτ hm, hc⟩

theorem targets_of_enqueue {w : Work} (ht : (h.enqueue w).Targets c) :
    h.Targets c ∨ w.control? = some c := by
  rcases ht with ⟨v, hv, hvc⟩ | ht
  · rcases List.mem_append.mp hv with hv | hv
    · exact .inl (.inl ⟨v, hv, hvc⟩)
    · exact .inr (List.mem_singleton.mp hv ▸ hvc)
  · exact .inl (.inr ht)

theorem targets_of_setTimer {delay : Nat} {w : Work} (ht : (h.setTimer delay w).Targets c) :
    h.Targets c ∨ w.control? = some c := by
  rcases ht with ht | ⟨τ, hτ, hτc⟩
  · exact .inl (.inl ht)
  · rcases List.mem_append.mp hτ with hτ | hτ
    · exact .inl (.inr ⟨τ, hτ, hτc⟩)
    · rw [List.mem_singleton.mp hτ] at hτc
      exact .inr hτc

theorem targets_of_write {block : NodeId} {clipboard text : String}
    (ht : (h.write block control clipboard text).2.Targets c) :
    h.Targets c ∨ c = control := by
  obtain ⟨h₁, -, -, hc, heq⟩ := write_eq h block control clipboard text
  rw [heq] at ht
  refine (targets_of_enqueue ht).imp (fun ht => ?_) fun hw => (Option.some.inj hw).symm
  exact hc.targets ((showLabel_spec h₁ control _).2.2.targets ht)

theorem targets_of_beginClick {n : Nat} {block : NodeId} {clipboard : String}
    (ht : (h.beginClick n block control clipboard).Targets c) : h.Targets c ∨ c = control := by
  by_cases hd : (h.clipboard clipboard).delay = 0
  · rw [beginClick_of_prompt hd] at ht
    exact targets_of_write ht
  · rw [beginClick_of_slow hd] at ht
    exact (targets_of_setTimer ht).imp id fun hw => (Option.some.inj hw).symm

theorem targets_of_dispatchClick {x : NodeId} (ht : (h.dispatchClick x).2.Targets c) :
    h.Targets c ∨ ∃ block clipboard, (x, .copyBlock block c clipboard) ∈ h.document.listeners := by
  rcases ht with ⟨w, hw, hwc⟩ | ht
  · rcases List.mem_append.mp hw with hw | hw
    · exact .inl (.inl ⟨w, hw, hwc⟩)
    · obtain ⟨l, hl, rfl⟩ := List.mem_map.mp hw
      obtain ⟨⟨y, l⟩, hmem, rfl⟩ := List.mem_map.mp hl
      obtain ⟨hlisten, hy⟩ := List.mem_filter.mp hmem
      obtain rfl : y = x := of_decide_eq_true hy
      cases l with
      | note text => simp [workOf, Work.control?] at hwc
      | copyBlock block control clipboard =>
        obtain rfl := Option.some.inj hwc
        exact .inr ⟨block, clipboard, hlisten⟩
  · exact .inl (.inr ht)

theorem targets_of_fireTimers {time : Nat} (ht : (h.fireTimers time).Targets c) : h.Targets c := by
  rcases ht with ⟨w, hw, hwc⟩ | ⟨τ, hτ, hτc⟩
  · rcases List.mem_append.mp hw with hw | hw
    · exact .inl ⟨w, hw, hwc⟩
    · obtain ⟨τ, hτ, rfl⟩ := List.mem_map.mp hw
      exact .inr ⟨τ, List.mem_of_mem_filter hτ, hwc⟩
  · exact .inr ⟨τ, List.mem_of_mem_filter hτ, hτc⟩

/-- What comes of a piece of work is aimed at the same control. -/
theorem targets_of_run {w : Work} (ht : (h.run w).Targets c) :
    h.Targets c ∨ w.control? = some c := by
  cases w with
  | click n block control clipboard =>
    exact (targets_of_beginClick ht).imp id fun hc => by rw [hc]; rfl
  | write n block control clipboard text =>
    exact (targets_of_write ht).imp id fun hc => by rw [hc]; rfl
  | note n text => exact .inl (ht.mono (fun _ => id) fun _ => id)
  | armRevert control =>
    rcases targets_of_setTimer ht with ht | hw
    · exact .inl ht
    · exact .inr hw
  | revert control => exact .inl ((showLabel_spec h control _).2.2.targets ht)
  | attach i => exact .inl ((calm_attach h i).targets ht)
  | observe i => exact .inl ((calm_runObserver h i).targets ht)

/-- Work is aimed at the controls that a handled click names and at those that the listeners of a
clicked node copy for. -/
theorem targets_of_perform {a : Action} (ht : (a.perform h).Targets c) :
    h.Targets c ∨ a.aim? h = some c ∨
      ∃ x block clipboard, (x, .copyBlock block c clipboard) ∈ h.document.listeners := by
  cases a with
  | operate o =>
    obtain ⟨-, -, hc⟩ := wake_spec { h with document := o.run h.document }
    exact .inl ((hc.of_start rfl rfl rfl).targets ht)
  | reload events => exact .inl ((edit_spec h _).2.2.targets ht)
  | enhance clipboard => exact .inl ((calm_enhance h clipboard).targets ht)
  | flush i => exact .inl ((calm_flushSession h i).targets ht)
  | click x => exact (targets_of_dispatchClick ht).imp id fun hx => .inr ⟨x, hx⟩
  | handle block control clipboard =>
    exact (targets_of_beginClick ht).imp id fun hc => .inl (by rw [hc]; rfl)
  | run k =>
    cases hk : h.queue[k]? with
    | none =>
      rw [Action.perform_run_of_none hk] at ht
      exact .inl ht
    | some w =>
      rw [Action.perform_run hk] at ht
      rcases targets_of_run ht with ht | hw
      · exact .inl (ht.mono List.eraseIdx_subset fun _ => id)
      · exact .inl (.inl ⟨w, List.mem_of_getElem? hk, hw⟩)
  | advance time => exact .inl (targets_of_fireTimers ht)
  | openSession clipboard => exact .inl ((calm_beginSession h clipboard).targets ht)
  | closeSession i => exact .inl ((calm_closeSession h i).targets ht)
  | abandonSession i => exact .inl ((calm_abandonSession h i).targets ht)
  | markReady => exact .inl ((markReady_spec h).2.2.targets ht)
  | setClipboard _ _ | takeNotes => exact .inl (ht.mono (fun _ => id) fun _ => id)

/-! ## §3 Clicks that nobody hears -/

/-- Nothing has happened but that labels of the controls have been set and that there is more, or
less, work of clicks. -/
structure Hushed (controls : List NodeId) (h h' : Host) : Prop where
  document : h'.document.unlabelled controls = h.document.unlabelled controls
  sessions : h'.sessions = h.sessions
  queue : h'.queue.filter Work.isSessions = h.queue.filter Work.isSessions
  timers : ∀ τ ∈ h'.timers, τ ∈ h.timers ∨ τ.work.isSessions = false

variable {controls : List NodeId}

theorem Hushed.trans (hh : h.Hushed controls h') (hh' : h'.Hushed controls h'') :
    h.Hushed controls h'' where
  document := hh'.document.trans hh.document
  sessions := hh'.sessions.trans hh.sessions
  queue := hh'.queue.trans hh.queue
  timers τ hτ := (hh'.timers τ hτ).elim (hh.timers τ) .inr

/-- What else a host has does not matter. -/
theorem hushed_of_eq (hd : h'.document = h.document) (hs : h'.sessions = h.sessions)
    (hq : h'.queue = h.queue) (ht : h'.timers = h.timers) : h.Hushed controls h' :=
  ⟨by rw [hd], hs, by rw [hq], fun _ hτ => .inl (ht ▸ hτ)⟩

theorem hushed_enqueue (h : Host) {w : Work} (hw : w.isSessions = false) :
    h.Hushed controls (h.enqueue w) :=
  ⟨rfl, rfl, by simp [enqueue, List.filter_append, hw], fun _ => .inl⟩

theorem hushed_setTimer (h : Host) (delay : Nat) {w : Work} (hw : w.isSessions = false) :
    h.Hushed controls (h.setTimer delay w) := by
  refine ⟨rfl, rfl, rfl, fun τ hτ => ?_⟩
  rcases List.mem_append.mp hτ with hτ | hτ
  · exact .inl hτ
  · exact .inr (List.mem_singleton.mp hτ ▸ hw)

section clicks
variable (hw : h.document.WellFormed) (ha : h.Awake) (hc : control ∈ controls)
  (hl : h.document.Labelled control)
include hw ha hc hl

theorem hushed_showLabel (l : ControlLabel) : h.Hushed controls (h.showLabel control l) := by
  obtain ⟨hd, hobs⟩ := setLabel_quiet hw hl hc l
  let h₁ : Host := { h with document := ((setLabel control l).apply h.document).2 }
  have hwake : h₁.wake = h₁ := Awake.wake_eq (ha.keep hobs rfl fun _ => id)
  have hedit : h.Hushed controls (h.edit (setLabel control l)).2 := by
    rw [edit_eq, hwake]
    exact ⟨hd, rfl, rfl, fun _ => .inl⟩
  unfold showLabel
  cases hr : h.edit (setLabel control l) with
  | mk r h' =>
    rw [hr] at hedit
    cases r with
    | ok _ => exact hedit
    | error e => exact hedit.trans (hushed_of_eq rfl rfl rfl rfl)

theorem hushed_write (block : NodeId) (clipboard text : String) :
    h.Hushed controls (h.write block control clipboard text).2 := by
  have hshow : ∀ (h₁ : Host) (l : ControlLabel), h₁.document = h.document →
      h₁.sessions = h.sessions → h₁.queue = h.queue → h₁.timers = h.timers →
      h.Hushed controls ((h₁.showLabel control l).enqueue (.armRevert control)) := by
    intro h₁ l hd hs hq ht
    have ha₁ : h₁.Awake := ha.keep (by rw [hd]; exact ⟨rfl, rfl⟩) hs fun _ hi => hq ▸ hi
    have hlabel := hushed_showLabel (hd ▸ hw) ha₁ hc (hd ▸ hl) l
    exact ((hushed_of_eq hd hs hq ht).trans hlabel).trans (hushed_enqueue _ rfl)
  refine hshow _ _ ?_ ?_ ?_ ?_
  all_goals dsimp only
  all_goals split <;> rfl

theorem hushed_beginClick (n : Nat) (block : NodeId) (clipboard : String) :
    h.Hushed controls (h.beginClick n block control clipboard) := by
  by_cases hd : (h.clipboard clipboard).delay = 0
  · rw [beginClick_of_prompt hd]
    exact hushed_write hw ha hc hl block clipboard _
  · rw [beginClick_of_slow hd]
    exact hushed_setTimer h _ rfl

end clicks

end Host

end CopyControl
