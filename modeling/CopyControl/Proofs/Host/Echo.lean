import CopyControl.Proofs.Enhance.Unlabelled
import CopyControl.Proofs.Host.Effects

/-!
A run and the same run without its clicks.

Two hosts echo each other if they differ in the texts of some nodes, in the work of clicks, and in
what nobody but clicks looks at: clipboards, clock, notes and log (`Echo`). Everything that can
happen to a host, clicks apart, happens in the same way to one that echoes it (`Echo.perform`).

* §1 runs without clicks
* §2 hosts that echo each other
* §3 passes and sessions
* §4 actions
-/

namespace CopyControl

open Document

/-! ## §1 Runs without clicks -/

/-- Whether the work is a session's. All other work comes of clicks. -/
def Work.isSessions : Work → Bool
  | .attach _ | .observe _ => true
  | _ => false

namespace Action

/-- What is left of an action without clicks: nothing of a click and of work that comes of one. The
work of sessions stands further in front in a queue without the work of clicks. -/
def withoutClicks : Action → Host → List Action
  | click _, _ => []
  | handle _ _ _, _ => []
  | run k, h =>
    if (h.queue[k]?).any Work.isSessions then
      [run ((h.queue.take k).countP Work.isSessions)]
    else []
  | a, _ => [a]

/-- A run without its clicks. -/
def eraseClicks : List Action → Host → List Action
  | [], _ => []
  | a :: as, h => a.withoutClicks h ++ eraseClicks as (a.perform h)

theorem eraseClicks_append (as bs : List Action) (h : Host) :
    eraseClicks (as ++ bs) h = eraseClicks as h ++ eraseClicks bs (performAll as h) := by
  induction as generalizing h with
  | nil => rfl
  | cons a as ih =>
    rw [List.cons_append, eraseClicks, ih, eraseClicks, List.append_assoc]
    rfl

end Action

section places
variable {α : Type} {p : α → Bool} {l : List α} {k : Nat} {a : α}

/-- A list around one of its places. -/
theorem split_at_place (hk : l[k]? = some a) : l = l.take k ++ a :: l.drop (k + 1) := by
  obtain ⟨hlt, ha⟩ := List.getElem?_eq_some_iff.mp hk
  rw [← ha, List.getElem_cons_drop, List.take_append_drop]

/-- Where an element of a list is found among those with a property that it has. -/
theorem getElem?_filter_countP (hk : l[k]? = some a) (ha : p a) :
    (l.filter p)[(l.take k).countP p]? = some a := by
  have hsplit := congrArg (List.filter p) (split_at_place hk)
  rw [List.filter_append, List.filter_cons_of_pos ha] at hsplit
  rw [hsplit, List.countP_eq_length_filter, List.getElem?_append_right (Nat.le_refl _),
    Nat.sub_self, List.getElem?_cons_zero]

theorem filter_eraseIdx_of_pos (hk : l[k]? = some a) (ha : p a) :
    (l.eraseIdx k).filter p = (l.filter p).eraseIdx ((l.take k).countP p) := by
  have hsplit := congrArg (List.filter p) (split_at_place hk)
  rw [List.filter_append, List.filter_cons_of_pos ha] at hsplit
  rw [List.eraseIdx_eq_take_drop_succ, List.filter_append, hsplit, List.countP_eq_length_filter,
    List.eraseIdx_append_of_length_le (Nat.le_refl _), Nat.sub_self, List.eraseIdx_cons_zero]

theorem filter_eraseIdx_of_neg (hk : l[k]? = some a) (ha : p a = false) :
    (l.eraseIdx k).filter p = l.filter p := by
  have hsplit := congrArg (List.filter p) (split_at_place hk)
  rw [List.filter_append, List.filter_cons_of_neg (by simp [ha])] at hsplit
  rw [List.eraseIdx_eq_take_drop_succ, List.filter_append, hsplit]

end places

/-! ## §2 Hosts that echo each other -/

namespace Document

variable {S : NodeId → Bool} {d d' : Document}

/-- An operation does the same to documents that differ in texts. -/
theorem run_congr (hd : d'.blanked S = d.blanked S) (o : Operation) :
    (o.run d').blanked S = (o.run d).blanked S := by
  have blind : ∀ {α : Type} {e : Edit α}, Blind S e →
      (e.apply d').2.blanked S = (e.apply d).2.blanked S := fun he => (he.apply_eq hd).2
  -- what is not on nodes has nothing to do with texts
  have apart : ∀ f : Document → Document, (∀ d, (f d).blanked S = f (d.blanked S)) →
      (f d').blanked S = (f d).blanked S := fun f hf => by rw [hf, hf, hd]
  cases o with
  | createElement tag => exact blind (blind_createElement tag)
  | createText s => exact blind (blind_createText s)
  | createRaw markup => exact blind (blind_createRaw markup)
  | appendChild p c => exact blind (blind_insertBefore p c none)
  | insertBefore p c r => exact blind (blind_insertBefore p c r)
  | removeChild p c => exact blind (blind_removeChild p c)
  | replaceChildren p cs => exact blind (blind_replaceChildren p cs)
  | release x => exact blind (blind_release x)
  | setText x s => exact blind (blind_setText x s)
  | setTextContent x s => exact blind (blind_setTextContent x s)
  | appendText x s => exact blind (blind_appendText x s)
  | addClass x c => exact blind (blind_updateElement x _)
  | setAttribute x name value => exact blind (blind_updateElement x _)
  | addClickListener x l => exact blind (blind_addClickListener x l)
  | observe target subtree => exact apart (fun d => (d.observe target subtree).2) fun _ => rfl
  | disconnect o => exact apart (·.disconnect o) fun _ => rfl
  | takeRecords o => exact apart (fun d => (d.takeRecords o).2) fun _ => rfl
  | nextBatch o =>
    refine apart (fun d => (d.nextBatch o).2) fun d => ?_
    simp only [nextBatch, show (d.blanked S).queued o = d.queued o from rfl]
    split <;> rfl
  | dropSubscription o => exact apart (·.dropSubscription o) fun _ => rfl
  | markReady => exact apart (·.markReady) fun _ => rfl

/-- A new body is put in place in the same way. -/
theorem replaceBody_congr (hd : d'.blanked S = d.blanked S) (events : List Markdown.Event) :
    ((Markdown.replaceBody events).apply d').2.blanked S =
      ((Markdown.replaceBody events).apply d).2.blanked S := by
  have hblind : Blind S (Markdown.replaceBody events) :=
    ((Markdown.constructive_buildFragment events).blind S).bind fun nodes =>
      .read (fun d => (blind_replaceChildren d.body nodes).bind fun _ => blind_pure _) fun _ => rfl
  exact (hblind.apply_eq hd).2

end Document

namespace Host

/-- The second host is the first one without the work of clicks and, it may be, with other texts in
`S`, with other clipboards, at another time, and with other notes and another log. -/
structure Echo (S : NodeId → Bool) (h h' : Host) : Prop where
  document : h'.document.blanked S = h.document.blanked S
  sessions : h'.sessions = h.sessions
  queue : h'.queue = h.queue.filter Work.isSessions
  timers : h'.timers = []
  waiting : ∀ τ ∈ h.timers, τ.work.isSessions = false

namespace Echo

variable {S : NodeId → Bool} {h h' : Host}

/-- What texts have no part in is the same in both documents. -/
theorem congr (he : h.Echo S h') {β : Type} {f : Document → β}
    (hf : ∀ d, f (d.blanked S) = f d) : f h'.document = f h.document := by
  rw [← hf, he.document, hf]

/-- The document is changed in the same way on both sides. -/
theorem withDocument (he : h.Echo S h') {d d' : Document} (hd : d'.blanked S = d.blanked S) :
    Echo S { h with document := d } { h' with document := d' } :=
  ⟨hd, he.sessions, he.queue, he.timers, he.waiting⟩

theorem record (he : h.Echo S h') (e e' : LogEntry) : (h.record e).Echo S (h'.record e') :=
  ⟨he.document, he.sessions, he.queue, he.timers, he.waiting⟩

theorem enqueue (he : h.Echo S h') {w : Work} (hw : w.isSessions) :
    (h.enqueue w).Echo S (h'.enqueue w) := by
  refine ⟨he.document, he.sessions, ?_, he.timers, he.waiting⟩
  simp [Host.enqueue, he.queue, List.filter_append, hw]

theorem setSession (he : h.Echo S h') (i : Nat) (s : Session) :
    (h.setSession i s).Echo S (h'.setSession i s) := by
  refine ⟨he.document, ?_, he.queue, he.timers, he.waiting⟩
  simp [Host.setSession, he.sessions]

/-- The work of sessions is queued on both sides. -/
theorem contains_iff (he : h.Echo S h') {w : Work} (hw : w.isSessions) :
    h'.queue.contains w = h.queue.contains w := by
  rw [Bool.eq_iff_iff]
  simp [he.queue, hw]

theorem wakeObserver (he : h.Echo S h') (r : Registration) :
    (h.wakeObserver r).Echo S (h'.wakeObserver r) := by
  have hs : h'.sessionOf? r.id = h.sessionOf? r.id := by rw [sessionOf?, he.sessions, sessionOf?]
  have hq : h'.document.queued r.id = h.document.queued r.id :=
    he.congr (f := (·.queued r.id)) fun _ => rfl
  rw [Host.wakeObserver, Host.wakeObserver, hs]
  cases h.sessionOf? r.id with
  | none => exact he
  | some i =>
    simp only [hq, he.contains_iff (w := .observe i) rfl]
    split
    · exact he
    · exact he.enqueue rfl

theorem foldl {α : Type} {f : Host → α → Host}
    (hf : ∀ {h h' : Host} a, h.Echo S h' → (f h a).Echo S (f h' a)) (he : h.Echo S h')
    (l : List α) : (l.foldl f h).Echo S (l.foldl f h') := by
  induction l generalizing h h' with
  | nil => exact he
  | cons a l ih => exact ih (hf a he)

theorem wake (he : h.Echo S h') : h.wake.Echo S h'.wake := by
  have hobs : h'.document.observers = h.document.observers :=
    he.congr (f := Document.observers) fun _ => rfl
  rw [Host.wake, Host.wake, hobs]
  exact foldl (fun r he => he.wakeObserver r) he _

/-! ## §3 Passes and sessions -/

theorem pass (he : h.Echo S h') (clipboard : String) :
    (h.pass clipboard).2.Echo S (h'.pass clipboard).2 :=
  ⟨enhance_congr he.document clipboard, he.sessions, he.queue, he.timers, he.waiting⟩

theorem enhance (he : h.Echo S h') (clipboard : String) :
    (h.enhance clipboard).2.Echo S (h'.enhance clipboard).2 :=
  (he.pass clipboard).wake

theorem disconnect (he : h.Echo S h') (o : ObserverId) :
    (h.disconnect o).Echo S (h'.disconnect o) :=
  (he.withDocument (run_congr he.document (.disconnect o))).record _ _

theorem observeBody (he : h.Echo S h') (i : Nat) (clipboard : String) (wanted : Bool) :
    (h.observeBody i clipboard wanted).Echo S (h'.observeBody i clipboard wanted) := by
  have hbody : h'.document.body = h.document.body := he.congr (f := Document.body) fun _ => rfl
  have hid : (h'.document.observe h.document.body true).1 =
      (h.document.observe h.document.body true).1 :=
    he.congr (f := fun d => (d.observe h.document.body true).1) fun _ => rfl
  have hobs := he.withDocument (run_congr he.document (.observe h.document.body true))
  simp only [Host.observeBody, hbody, hid]
  split
  · exact (hobs.setSession i _).enqueue rfl
  · exact (hobs.disconnect _).setSession i _

theorem attach (he : h.Echo S h') (i : Nat) : (h.attach i).Echo S (h'.attach i) := by
  have hs : h'.sessions[i]? = h.sessions[i]? := by rw [he.sessions]
  cases hi : h.sessions[i]? with
  | none =>
    rw [Host.attach, Host.attach, hs, hi]
    exact he
  | some s =>
    cases s with
    | waiting clipboard wanted =>
      have hready : h'.document.ready = h.document.ready :=
        he.congr (f := Document.ready) fun _ => rfl
      rw [attach_of_waiting hi, attach_of_waiting (hs.trans hi), hready]
      split
      · exact ((he.enhance clipboard).record _ _).observeBody i clipboard wanted
      · exact he
    | observing _ _ | closed =>
      rw [Host.attach, Host.attach, hs, hi]
      exact he

theorem handleBatches (he : h.Echo S h') (clipboard : String) (o : ObserverId) (n : Nat) :
    (h.handleBatches clipboard o n).Echo S (h'.handleBatches clipboard o n) := by
  induction n generalizing h h' with
  | zero => exact he
  | succ n ih =>
    have hpoll : (h'.document.nextBatch o).1 = (h.document.nextBatch o).1 := by
      refine he.congr (f := fun d => (d.nextBatch o).1) fun d => ?_
      simp only [nextBatch, show (d.blanked S).queued o = d.queued o from rfl]
      split <;> rfl
    have hrest := run_congr he.document (.nextBatch o)
    simp only [Operation.run] at hrest
    unfold Host.handleBatches
    cases hn : h.document.nextBatch o with
    | mk poll d =>
      cases hn' : h'.document.nextBatch o with
      | mk poll' d' =>
        rw [hn, hn'] at hpoll hrest
        obtain rfl : poll' = poll := hpoll
        cases poll' with
        | pending => exact he
        | closed => exact he.record _ _
        | batch records => exact ih (((he.withDocument hrest).record _ _).pass clipboard)

theorem runObserver (he : h.Echo S h') (i : Nat) : (h.runObserver i).Echo S (h'.runObserver i) := by
  rw [Host.runObserver, Host.runObserver, he.sessions]
  split
  · exact (he.handleBatches _ _ _).wake
  · exact he

theorem flushSession (he : h.Echo S h') (i : Nat) :
    (h.flushSession i).2.Echo S (h'.flushSession i).2 := by
  rw [Host.flushSession, Host.flushSession, he.sessions]
  split
  · exact he.enhance _
  · exact he

theorem beginSession (he : h.Echo S h') (clipboard : String) :
    (h.beginSession clipboard).2.Echo S (h'.beginSession clipboard).2 := by
  have happ : Echo S { h with sessions := h.sessions ++ [.waiting clipboard true] }
      { h' with sessions := h'.sessions ++ [.waiting clipboard true] } :=
    ⟨he.document, by rw [he.sessions], he.queue, he.timers, he.waiting⟩
  simp only [Host.beginSession, he.sessions] at happ ⊢
  exact happ.enqueue rfl

theorem closeSession (he : h.Echo S h') (i : Nat) :
    (h.closeSession i).Echo S (h'.closeSession i) := by
  rw [Host.closeSession, Host.closeSession, he.sessions]
  split
  · exact (he.disconnect _).setSession i _
  · exact he.setSession i _
  · exact he

theorem abandonSession (he : h.Echo S h') (i : Nat) :
    (h.abandonSession i).Echo S (h'.abandonSession i) := by
  rw [Host.abandonSession, Host.abandonSession, he.sessions]
  split
  · exact he.setSession i _
  · exact he.closeSession i

theorem wakeWaiting (he : h.Echo S h') (i : Nat) :
    (h.wakeWaiting i).Echo S (h'.wakeWaiting i) := by
  simp only [Host.wakeWaiting, he.sessions, he.contains_iff (w := .attach i) rfl]
  split
  · split
    · exact he
    · exact he.enqueue rfl
  · exact he

theorem markReady (he : h.Echo S h') : h.markReady.Echo S h'.markReady := by
  have hready := he.withDocument (run_congr he.document .markReady)
  have hlength : h'.sessions.length = h.sessions.length := by rw [he.sessions]
  rw [Host.markReady, Host.markReady, hlength]
  exact foldl (fun i he => he.wakeWaiting i) hready _

/-! ## §4 Actions -/

/-- Timers are set by clicks only. -/
theorem fireTimers (he : h.Echo S h') (time : Nat) :
    (h.fireTimers time).Echo S (h'.fireTimers time) := by
  refine ⟨he.document, he.sessions, ?_, ?_, fun τ hτ => he.waiting τ (List.mem_of_mem_filter hτ)⟩
  · have hfired : ((h.timers.filter (·.due ≤ time)).map (·.work)).filter Work.isSessions = [] := by
      rw [List.filter_eq_nil_iff]
      intro w hw
      obtain ⟨τ, hτ, rfl⟩ := List.mem_map.mp hw
      simp [he.waiting τ (List.mem_of_mem_filter hτ)]
    simp [Host.fireTimers, he.timers, he.queue, List.filter_append, hfired]
  · simp [Host.fireTimers, he.timers]

/-- A piece of a session's work is taken from the queue on both sides. -/
theorem eraseIdx (he : h.Echo S h') {k : Nat} {w : Work} (hk : h.queue[k]? = some w)
    (hw : w.isSessions) :
    Echo S { h with queue := h.queue.eraseIdx k }
      { h' with queue := h'.queue.eraseIdx ((h.queue.take k).countP Work.isSessions) } := by
  refine ⟨he.document, he.sessions, ?_, he.timers, he.waiting⟩
  rw [he.queue]
  exact (filter_eraseIdx_of_pos hk hw).symm

theorem run (he : h.Echo S h') {k : Nat} {w : Work} (hk : h.queue[k]? = some w)
    (hw : w.isSessions) :
    ((Action.run k).perform h).Echo S
      ((Action.run ((h.queue.take k).countP Work.isSessions)).perform h') := by
  have hk' : h'.queue[(h.queue.take k).countP Work.isSessions]? = some w := by
    rw [he.queue]
    exact getElem?_filter_countP hk hw
  have htaken := he.eraseIdx hk hw
  rw [Action.perform_run hk, Action.perform_run hk']
  cases w with
  | attach i => exact htaken.attach i
  | observe i => exact htaken.runObserver i
  | click _ _ _ _ | write _ _ _ _ _ | note _ _ | armRevert _ | revert _ =>
    simp [Work.isSessions] at hw

/-- Whatever happens to a host, clicks apart, happens in the same way to a host that echoes it. -/
theorem perform (he : h.Echo S h') {a : Action} (ha : a.withoutClicks h ≠ []) :
    (a.perform h).Echo S (Action.performAll (a.withoutClicks h) h') := by
  cases a with
  | click _ | handle _ _ _ => simp [Action.withoutClicks] at ha
  | operate o =>
    exact (he.withDocument (run_congr he.document o)).wake
  | reload events =>
    exact (he.withDocument (replaceBody_congr he.document events)).wake
  | enhance clipboard => exact he.enhance clipboard
  | flush i => exact he.flushSession i
  | run k =>
    cases hk : h.queue[k]? with
    | none => simp [Action.withoutClicks, hk] at ha
    | some w =>
      cases hw : w.isSessions with
      | false => simp [Action.withoutClicks, hk, hw] at ha
      | true =>
        rw [Action.withoutClicks, hk, Option.any_some, if_pos hw]
        exact he.run hk hw
  | advance time => exact he.fireTimers time
  | openSession clipboard => exact he.beginSession clipboard
  | closeSession i => exact he.closeSession i
  | abandonSession i => exact he.abandonSession i
  | markReady => exact he.markReady
  | setClipboard _ _ | takeNotes =>
    exact ⟨he.document, he.sessions, he.queue, he.timers, he.waiting⟩

end Echo

end Host

end CopyControl
