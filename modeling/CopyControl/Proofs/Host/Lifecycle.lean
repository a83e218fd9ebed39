import CopyControl.Proofs.Host.Sessions

/-!
The life of a session.

How far a session is can be read off the document: it has one registration while it observes, and
none before and after. From what an action does to sessions follow the invariant that accounts for
every registration (`Enrolled.leads`), and two facts that look back from a state to an earlier one:
who observes under an identity that was given out before has done so all the time
(`observes_of_performAll`), and what is closed stays closed (`closed_performAll`).

An observer can be taken away by whoever has its identity. A session keeps that of its observer to
itself, so the runs are those in which no operation is given it (`SparesAll`).

* §1 accounting for registrations
* §2 looking back
* §3 whole runs
-/

namespace CopyControl

open Document

/-! ## §1 Accounting for registrations -/

namespace Host

variable {h h' : Host} {a : Action} {new others : List ObserverId} {i j : Nat} {o p : ObserverId}

theorem observes_congr (hs : h'.sessions = h.sessions) : h'.Observes i o ↔ h.Observes i o := by
  rw [Observes, hs, Observes]

theorem observes_unique (hi : h.Observes i o) (hj : h.Observes i p) : o = p := by
  obtain ⟨c, hi⟩ := hi
  obtain ⟨c', hj⟩ := hj
  exact (Session.observing.inj (Option.some.inj (hi.symm.trans hj))).2

/-- A session that has been set to something else. -/
theorem observes_of_set {s : Session} (hs : h'.sessions = h.sessions.set i s)
    (ho : h'.Observes j o) :
    (j = i ∧ ∃ clipboard, s = .observing clipboard o) ∨ (j ≠ i ∧ h.Observes j o) :=
  observes_of_setSession ((observes_congr (h := h.setSession i s) hs).mp ho)

theorem observes_set {s : Session} (hs : h'.sessions = h.sessions.set i s) (hne : j ≠ i)
    (ho : h.Observes j o) : h'.Observes j o := by
  rwa [Observes, hs, List.getElem?_set_ne hne.symm]

theorem observes_append {s : Session} (hn : ∀ clipboard o, s ≠ .observing clipboard o)
    (hs : h'.sessions = h.sessions ++ [s]) : h'.Observes j o ↔ h.Observes j o := by
  constructor
  · rintro ⟨c, hc⟩
    rw [hs, List.getElem?_append] at hc
    split at hc
    · exact ⟨c, hc⟩
    · exact absurd (List.mem_singleton.mp (List.mem_of_getElem? hc)).symm (hn c o)
  · rintro ⟨c, hc⟩
    refine ⟨c, ?_⟩
    rw [hs, List.getElem?_append_left (List.getElem?_eq_some_iff.mp hc).1, hc]

/-- Every open session has one registration, of its own, and every other registration is that of
somebody else, who was answered an identity in `others`. -/
structure Enrolled (h : Host) (others : List ObserverId) : Prop where
  registered : ∀ i o, h.Observes i o → h.document.registrationsOf o = [⟨o, h.document.body, true⟩]
  listening : ∀ i o, h.Observes i o → h.document.isListening o
  own : ∀ i j o, h.Observes i o → h.Observes j o → i = j
  apart : ∀ i o, h.Observes i o → o ∉ others
  accounted : ∀ g ∈ h.document.observers, (∃ i, h.Observes i g.id) ∨ g.id ∈ others
  issued : ∀ o ∈ others, o < h.document.mailboxes.size

namespace Enrolled

theorem lt_size (he : h.Enrolled others) (hi : h.Observes i o) : o < h.document.mailboxes.size :=
  lt_size_of_isListening (he.listening i o hi)

theorem housed (he : h.Enrolled others) : h.document.Housed := by
  intro g hg
  have hlt : g.id < h.document.mailboxes.size := by
    rcases he.accounted g hg with ⟨i, hi⟩ | ho
    · exact he.lt_size hi
    · exact he.issued _ ho
  simpa using hlt

theorem tended (he : h.Enrolled others) (ht : h.document.Tended h'.document)
    (hs : h'.sessions = h.sessions) : h'.Enrolled others where
  registered i o hi := by
    have hi := (observes_congr hs).mp hi
    rw [ht.kept o (he.listening i o hi), he.registered i o hi, ht.body]
  listening i o hi := by
    rw [ht.listening]
    exact he.listening i o ((observes_congr hs).mp hi)
  own i j o hi hj := he.own i j o ((observes_congr hs).mp hi) ((observes_congr hs).mp hj)
  apart i o hi := he.apart i o ((observes_congr hs).mp hi)
  accounted g hg := by
    simp only [observes_congr hs]
    exact he.accounted g (ht.fewer g hg)
  issued o ho := ht.size.symm ▸ he.issued o ho

/-- What is done to other observers changes nothing for those of sessions. -/
theorem notice (he : h.Enrolled others) (hw : h.document.WellFormed) {op : Operation}
    (ho : ¬ op.OnNodes) (hspare : h.Spares op) (hd : h'.document = op.run h.document)
    (hs : h'.sessions = h.sessions) : h'.Enrolled (others ++ op.subscribes h.document) := by
  have hknows : ∀ i o, h.Observes i o → h.document.Knows o h.document.body true := fun i o hi =>
    ⟨by simpa using he.lt_size hi, .inl (he.registered i o hi)⟩
  have hbody : h'.document.body = h.document.body :=
    hd ▸ congrArg Prod.snd (sameArena_run h.document ho).landmarks
  constructor
  case registered =>
    intro i o hi
    have hi := (observes_congr hs).mp hi
    have hne : op ≠ .disconnect o := fun heq => hspare i o hi (heq ▸ rfl)
    rw [hd, registrationsOf_run (hknows i o hi) hw, he.listening i o hi, ← hd, hbody]
    simpa [hne] using he.registered i o hi
  case listening =>
    intro i o hi
    have hi := (observes_congr hs).mp hi
    have hne : op ≠ .dropSubscription o := fun heq => hspare i o hi (heq ▸ rfl)
    rw [hd, isListening_run (hknows i o hi) hw, he.listening i o hi]
    simpa using hne
  case own =>
    exact fun i j o hi hj => he.own i j o ((observes_congr hs).mp hi) ((observes_congr hs).mp hj)
  case apart =>
    intro i o hi hmem
    have hi := (observes_congr hs).mp hi
    rcases List.mem_append.mp hmem with hmem | hmem
    · exact he.apart i o hi hmem
    · exact Nat.ne_of_lt (he.lt_size hi) (eq_size_of_mem_subscribes hmem).1
  case accounted =>
    intro g hg
    simp only [observes_congr hs, List.mem_append]
    rcases mem_observers_run ho (hd ▸ hg) with hg | hg
    · exact (he.accounted g hg).imp_right .inl
    · exact .inr (.inr hg)
  case issued =>
    intro o hmem
    rw [hd, size_run ho]
    rcases List.mem_append.mp hmem with hmem | hmem
    · exact Nat.lt_add_right _ (he.issued o hmem)
    · obtain ⟨rfl, hpos⟩ := eq_size_of_mem_subscribes hmem
      exact Nat.lt_add_of_pos_right hpos

/-- A session that is attached has the newest registration. -/
theorem attached (he : h.Enrolled others) {clipboard : String} (hlt : i < h.sessions.length)
    (hn : ∀ o, ¬ h.Observes i o) (hd : h'.document = (h.document.observe h.document.body true).2)
    (hs : h'.sessions = h.sessions.set i (.observing clipboard h.document.mailboxes.size)) :
    h'.Enrolled others := by
  have hold : ∀ j o, h'.Observes j o →
      (j = i ∧ o = h.document.mailboxes.size) ∨ h.Observes j o := fun j o hj => by
    rcases observes_of_set hs hj with ⟨rfl, c, hc⟩ | ⟨-, hj⟩
    · exact .inl ⟨rfl, (Session.observing.inj hc).2.symm⟩
    · exact .inr hj
  have hnew : h'.Observes i h.document.mailboxes.size := by
    refine ⟨clipboard, ?_⟩
    rw [hs, List.getElem?_set_self hlt]
  constructor
  case registered =>
    intro j o hj
    rw [hd]
    rcases hold j o hj with ⟨rfl, rfl⟩ | hj
    · exact registrationsOf_observe he.housed h.document.body true
    · rw [registrationsOf_observe_of_lt _ _ (he.lt_size hj)]
      exact he.registered j o hj
  case listening =>
    intro j o hj
    rw [hd]
    rcases hold j o hj with ⟨rfl, rfl⟩ | hj
    · exact (attends_observe h.document h.document.body).listening
    · rw [isListening_observe_of_lt _ _ (he.lt_size hj)]
      exact he.listening j o hj
  case own =>
    intro j k o hj hk
    rcases hold j o hj with ⟨rfl, rfl⟩ | hj <;> rcases hold k _ hk with ⟨rfl, hk⟩ | hk
    · rfl
    · exact absurd (he.lt_size hk) (Nat.lt_irrefl _)
    · exact absurd (hk ▸ he.lt_size hj) (Nat.lt_irrefl _)
    · exact he.own j k o hj hk
  case apart =>
    intro j o hj hmem
    rcases hold j o hj with ⟨rfl, rfl⟩ | hj
    · exact absurd (he.issued _ hmem) (Nat.lt_irrefl _)
    · exact he.apart j o hj hmem
  case accounted =>
    intro g hg
    rw [hd] at hg
    rcases List.mem_append.mp hg with hg | hg
    · refine (he.accounted g hg).imp_left fun ⟨j, hj⟩ => ⟨j, observes_set hs ?_ hj⟩
      rintro rfl
      exact hn _ hj
    · obtain rfl := List.mem_singleton.mp hg
      exact .inl ⟨i, hnew⟩
  case issued =>
    intro o hmem
    rw [hd, size_observe]
    exact Nat.lt_succ_of_lt (he.issued o hmem)

/-- A session that does not observe any more leaves no registration. -/
theorem closed (he : h.Enrolled others) (hi : h.Observes i o)
    (hd : h'.document = h.document.disconnect o) (hs : h'.sessions = h.sessions.set i .closed) :
    h'.Enrolled others := by
  have hold : ∀ j p, h'.Observes j p → h.Observes j p ∧ p ≠ o := fun j p hj => by
    rcases observes_of_set hs hj with ⟨-, c, hc⟩ | ⟨hne, hj⟩
    · simp at hc
    · exact ⟨hj, fun hpo => hne (he.own j i o (hpo ▸ hj) hi)⟩
  constructor
  case registered =>
    intro j p hj
    obtain ⟨hj, hne⟩ := hold j p hj
    rw [hd, registrationsOf_disconnect hne]
    exact he.registered j p hj
  case listening => exact fun j p hj => hd ▸ he.listening j p (hold j p hj).1
  case own => exact fun j k p hj hk => he.own j k p (hold j p hj).1 (hold k p hk).1
  case apart => exact fun j p hj => he.apart j p (hold j p hj).1
  case accounted =>
    intro g hg
    rw [hd] at hg
    obtain ⟨hg, hne⟩ := List.mem_filter.mp hg
    refine (he.accounted g hg).imp_left fun ⟨j, hj⟩ => ⟨j, observes_set hs ?_ hj⟩
    rintro rfl
    exact of_decide_eq_true hne (observes_unique hj hi)
  case issued => exact fun p hp => hd ▸ he.issued p hp

/-- Other sessions, none of which observes, make no difference. -/
theorem waiting (he : h.Enrolled others) (hd : h'.document = h.document)
    (ho : ∀ j o, h'.Observes j o ↔ h.Observes j o) : h'.Enrolled others where
  registered i o hi := hd ▸ he.registered i o ((ho i o).mp hi)
  listening i o hi := hd ▸ he.listening i o ((ho i o).mp hi)
  own i j o hi hj := he.own i j o ((ho i o).mp hi) ((ho j o).mp hj)
  apart i o hi := he.apart i o ((ho i o).mp hi)
  accounted g hg := by
    simp only [ho]
    exact he.accounted g (hd ▸ hg)
  issued o hmem := hd ▸ he.issued o hmem

theorem leads (he : h.Enrolled others) (hw : h.document.WellFormed)
    (hspare : ∀ op, a = .operate op → h.Spares op) (hl : h.Leads a new h') :
    h'.Enrolled (others ++ new) := by
  cases hl with
  | notice op ho ha hd hs =>
    refine he.notice hw ho ?_ hd hs
    rcases ha with rfl | ⟨-, rfl⟩
    · exact hspare op rfl
    · simp [Spares, Operation.observer?]
  | tended hd hs =>
    rw [List.append_nil]
    exact he.tended hd hs
  | opened clipboard hd hs =>
    rw [List.append_nil]
    exact he.waiting hd fun j o => observes_append (by simp) hs
  | attached i clipboard d hi hr ht hd hs =>
    rw [List.append_nil]
    have he' : Enrolled { h with document := d } others := he.tended ht rfl
    refine he'.attached (List.getElem?_eq_some_iff.mp hi).1 ?_ hd hs
    rintro o ⟨c, hc⟩
    simp [hi] at hc
  | unwanted i clipboard d hi hr ht hd hs =>
    rw [List.append_nil]
    -- as if the session had been attached, and closed in a step of its own
    let h₁ : Host := { h with document := d }
    let h₂ : Host := { h₁ with
      document := (d.observe d.body true).2
      sessions := h.sessions.set i (.observing clipboard d.mailboxes.size) }
    have hlt := (List.getElem?_eq_some_iff.mp hi).1
    have he₁ : h₁.Enrolled others := he.tended ht rfl
    have hn : ∀ o, ¬ h₁.Observes i o := by
      rintro o ⟨c, hc⟩
      simp [h₁, hi] at hc
    have he₂ : h₂.Enrolled others := he₁.attached hlt hn rfl rfl
    have ho₂ : h₂.Observes i d.mailboxes.size := ⟨clipboard, List.getElem?_set_self hlt⟩
    exact he₂.closed ho₂ hd (hs.trans (List.set_set ..).symm)
  | closed i o hi hd hs =>
    rw [List.append_nil]
    exact he.closed hi hd hs
  | waiting i clipboard wanted s hi hn hd hs =>
    rw [List.append_nil]
    refine he.waiting hd fun j o => ⟨fun hj => ?_, fun hj => observes_set hs ?_ hj⟩
    · rcases observes_of_set hs hj with ⟨-, c, hc⟩ | ⟨-, hj⟩
      · rcases hn with rfl | rfl <;> simp at hc
      · exact hj
    · rintro rfl
      obtain ⟨c, hc⟩ := hj
      simp [hi] at hc

end Enrolled

/-! ## §2 Looking back -/

theorem Leads.size_le (hl : h.Leads a new h') :
    h.document.mailboxes.size ≤ h'.document.mailboxes.size := by
  cases hl with
  | tended hd hs => exact Nat.le_of_eq hd.size.symm
  | notice op ho ha hd hs =>
    rw [hd, size_run ho]
    exact Nat.le_add_right _ _
  | attached i clipboard d hi hr ht hd hs | unwanted i clipboard d hi hr ht hd hs =>
    rw [hd, ← ht.size]
    exact Nat.le_trans (Nat.le_succ _) (Nat.le_of_eq (size_observe d d.body true).symm)
  | opened clipboard hd hs | closed i o hi hd hs | waiting i clipboard wanted s hi hn hd hs =>
    exact Nat.le_of_eq (congrArg (·.mailboxes.size) hd).symm

/-- A session begins to observe under an identity that has not been there. -/
theorem Leads.observes (hl : h.Leads a new h') (hj : h'.Observes j o)
    (ho : o < h.document.mailboxes.size) : h.Observes j o := by
  cases hl with
  | tended hd hs | notice op hop ha hd hs => exact (observes_congr hs).mp hj
  | opened clipboard hd hs => exact (observes_append (by simp) hs).mp hj
  | attached i clipboard d hi hr ht hd hs =>
    rcases observes_of_set hs hj with ⟨-, c, hc⟩ | ⟨-, hj⟩
    · rw [← (Session.observing.inj hc).2, ht.size] at ho
      exact absurd ho (Nat.lt_irrefl _)
    · exact hj
  | unwanted i clipboard d hi hr ht hd hs | closed i p hi hd hs =>
    rcases observes_of_set hs hj with ⟨-, c, hc⟩ | ⟨-, hj⟩
    · simp at hc
    · exact hj
  | waiting i clipboard wanted s hi hn hd hs =>
    rcases observes_of_set hs hj with ⟨-, c, hc⟩ | ⟨-, hj⟩
    · rcases hn with rfl | rfl <;> simp at hc
    · exact hj

/-- What is closed stays closed. -/
theorem Leads.stays (hl : h.Leads a new h') (hj : h.sessions[j]? = some .closed) :
    h'.sessions[j]? = some .closed := by
  have hset : ∀ {i : Nat} {s : Session}, h'.sessions = h.sessions.set i s →
      h.sessions[i]? ≠ some .closed → h'.sessions[j]? = some .closed := by
    intro i s hs hi
    have hne : i ≠ j := by
      rintro rfl
      exact hi hj
    rw [hs, List.getElem?_set_ne hne, hj]
  cases hl with
  | tended hd hs | notice op ho ha hd hs => rw [hs, hj]
  | opened clipboard hd hs =>
    rw [hs, List.getElem?_append_left (List.getElem?_eq_some_iff.mp hj).1, hj]
  | attached i clipboard d hi hr ht hd hs | unwanted i clipboard d hi hr ht hd hs
  | waiting i clipboard wanted s hi hn hd hs => exact hset hs (by simp [hi])
  | closed i o hi hd hs =>
    obtain ⟨c, hc⟩ := hi
    exact hset hs (by simp [hc])

end Host

/-- Whether the action signals that the document is ready. -/
def Action.marksReady : Action → Bool
  | .markReady => true
  | .operate .markReady => true
  | _ => false

namespace Host

variable {h h' : Host} {a : Action} {as : List Action} {others : List ObserverId} {j : Nat}
  {o : ObserverId}

/-- Nothing but the signal makes a document ready. -/
theorem Leads.ready {new : List ObserverId} (hl : h.Leads a new h') (ha : a.marksReady = false) :
    h'.document.ready = h.document.ready := by
  cases hl with
  | tended hd hs => exact ready_congr hd.shell
  | notice op ho hop hd hs =>
    rw [hd]
    cases op with
    | nextBatch p => exact ready_congr (tended_nextBatch h.document p).shell
    | markReady => rcases hop with rfl | ⟨rfl, -⟩ <;> simp [Action.marksReady] at ha
    | observe _ _ | disconnect _ | takeRecords _ | dropSubscription _ => rfl
    | _ => exact absurd trivial ho
  | attached i clipboard d hi hr ht hd hs | unwanted i clipboard d hi hr ht hd hs =>
    rw [hd]
    exact ready_congr ht.shell
  | opened clipboard hd hs | waiting i clipboard wanted s hi hn hd hs => rw [hd]
  | closed i o hi hd hs =>
    rw [hd]
    rfl

end Host

namespace Action

/-- The identities that the operations of a run are answered. -/
def subscribed : List Action → Host → List ObserverId
  | [], _ => []
  | a :: as, h => a.subscribes h ++ subscribed as (a.perform h)

theorem subscribed_append (as bs : List Action) (h : Host) :
    subscribed (as ++ bs) h = subscribed as h ++ subscribed bs (performAll as h) := by
  induction as generalizing h with
  | nil => rfl
  | cons a as ih =>
    rw [List.cons_append, subscribed, ih, subscribed, List.append_assoc]
    rfl

end Action

namespace Host

open CopyControl.Action

variable {h : Host} {as : List Action} {others : List ObserverId} {j : Nat} {o : ObserverId}

/-- Who observes under an identity that was there at the beginning has done so all the time. -/
theorem observes_of_performAll (hw : h.document.WellFormed)
    (hj : (performAll as h).Observes j o) (ho : o < h.document.mailboxes.size) :
    h.Observes j o := by
  induction as generalizing h with
  | nil => exact hj
  | cons a as ih =>
    have hl := leads_perform hw a
    exact hl.observes (ih (wellFormed_perform hw a) hj (Nat.lt_of_lt_of_le ho hl.size_le)) ho

theorem closed_performAll (hw : h.document.WellFormed) (as : List Action)
    (hj : h.sessions[j]? = some .closed) : (performAll as h).sessions[j]? = some .closed := by
  induction as generalizing h with
  | nil => exact hj
  | cons a as ih => exact ih (wellFormed_perform hw a) ((leads_perform hw a).stays hj)

theorem ready_performAll (hw : h.document.WellFormed) (has : ∀ a ∈ as, a.marksReady = false) :
    (performAll as h).document.ready = h.document.ready := by
  induction as generalizing h with
  | nil => rfl
  | cons a as ih =>
    obtain ⟨ha, has⟩ := List.forall_mem_cons.mp has
    exact (ih (wellFormed_perform hw a) has).trans ((leads_perform hw a).ready ha)

/-- Identities are answered once. -/
theorem size_le_of_mem_subscribed (hw : h.document.WellFormed) (ho : o ∈ subscribed as h) :
    h.document.mailboxes.size ≤ o := by
  induction as generalizing h with
  | nil => simp [subscribed] at ho
  | cons a as ih =>
    rcases List.mem_append.mp ho with ho | ho
    · cases a with
      | operate op => exact Nat.le_of_eq (eq_size_of_mem_subscribes ho).1.symm
      | _ => simp [subscribes] at ho
    · exact Nat.le_trans (leads_perform hw a).size_le (ih (wellFormed_perform hw a) ho)

/-- No operation of the run is given the identity of an open session's observer. -/
def SparesAll (h : Host) (as : List Action) : Prop :=
  ∀ bs op cs, as = bs ++ .operate op :: cs → (performAll bs h).Spares op

theorem Enrolled.performAll (he : h.Enrolled others) (hw : h.document.WellFormed)
    (hs : h.SparesAll as) : (performAll as h).Enrolled (others ++ subscribed as h) := by
  induction as generalizing h others with
  | nil =>
    rw [subscribed, List.append_nil]
    exact he
  | cons a as ih =>
    have hstep := he.leads hw (fun op hop => hs [] op as (hop ▸ rfl)) (leads_perform hw a)
    rw [subscribed, ← List.append_assoc]
    refine ih hstep (wellFormed_perform hw a) fun bs op cs has => ?_
    exact hs (a :: bs) op cs (by rw [has]; rfl)

/-! ## §3 Whole runs -/

theorem attach_of_not_ready (hr : h.document.ready ≠ .complete) (i : Nat) : h.attach i = h := by
  unfold attach
  split
  · exact if_neg hr
  · rfl

/-- There is nothing left of the session that could do anything. -/
structure Inert (h : Host) (i : Nat) : Prop where
  closed : h.sessions[i]? = some .closed
  /-- Its observer, if it is still queued, handles nothing, whatever it had been told of. -/
  observe : h.run (.observe i) = h
  attach : h.run (.attach i) = h
  flush : h.flushSession i = (none, h)
  /-- To close it again, or to drop it, does nothing. -/
  close : h.closeSession i = h ∧ h.abandonSession i = h

theorem inert_of_closed {i : Nat} (hi : h.sessions[i]? = some .closed) : h.Inert i where
  closed := hi
  observe := by rw [run, runObserver, hi]
  attach := by rw [run, Host.attach, hi]
  flush := by rw [flushSession, hi]
  close := by rw [abandonSession, hi, closeSession, hi]; exact ⟨rfl, rfl⟩

/-- The session is closed, and with it goes the registration of its observer `o`. Nothing else of
the document changes, what is queued for observers included, and no work that waits. -/
structure ClosesOnly (h h' : Host) (i : Nat) (o : ObserverId) : Prop where
  session : h'.sessions = h.sessions.set i .closed
  removed : h'.document.registrationsOf o = []
  one : h.document.observers.length = h'.document.observers.length + 1
  others : ∀ p, p ≠ o → h'.document.registrationsOf p = h.document.registrationsOf p
  sublist : h'.document.observers.Sublist h.document.observers
  rest : h'.document = { h.document with observers := h'.document.observers }
  work : h'.queue = h.queue ∧ h'.timers = h.timers

theorem closesOnly {i : Nat} (he : h.Enrolled others) (hi : h.Observes i o) :
    h.ClosesOnly ((h.disconnect o).setSession i .closed) i o where
  session := rfl
  removed := by simp [registrationsOf, setSession, disconnect, record, Document.disconnect]
  one := by
    have hsplit := List.length_eq_length_filter_add (l := h.document.observers)
      fun g : Registration => decide (g.id = o)
    have hone := congrArg List.length (he.registered i o hi)
    rw [registrationsOf, List.length_singleton] at hone
    have hrest : (h.document.disconnect o).observers.length =
        (h.document.observers.filter fun g => !decide (g.id = o)).length := by
      simp [Document.disconnect]
    rw [hone, ← hrest] at hsplit
    exact hsplit.trans (Nat.add_comm _ _)
  others _ hp := registrationsOf_disconnect hp
  sublist := List.filter_sublist
  rest := rfl
  work := ⟨rfl, rfl⟩

/-- What sessions are like after a run. -/
structure Lifecycle (h : Host) (as : List Action) : Prop where
  /-- As long as nobody has signalled that the document is ready, to attach a session does
  nothing. -/
  unready : h.document.ready = .loading → (∀ a ∈ as, a.marksReady = false) →
    ∀ i, (performAll as h).attach i = performAll as h
  /-- An open session has one registration, and one that is its own. -/
  registered : ∀ i o, (performAll as h).Observes i o →
    (performAll as h).document.registrationsOf o =
        [⟨o, (performAll as h).document.body, true⟩] ∧
      (∀ j, (performAll as h).Observes j o → j = i) ∧
      o ∉ List.range h.document.mailboxes.size ++ subscribed as h
  /-- Every other registration was there before, or an operation has been answered it. -/
  accounted : ∀ g ∈ (performAll as h).document.observers,
    (∃ i, (performAll as h).Observes i g.id) ∨
      g.id ∈ List.range h.document.mailboxes.size ++ subscribed as h
  /-- A session that has observed and does so no more has none. -/
  gone : ∀ bs cs, as = bs ++ cs → ∀ i o, (performAll bs h).Observes i o →
    ¬ (performAll as h).Observes i o → (performAll as h).document.registrationsOf o = []
  /-- To close or to drop an open session takes its registration away, and nothing more. -/
  close : ∀ i o, (performAll as h).Observes i o →
    (performAll as h).ClosesOnly ((performAll as h).closeSession i) i o ∧
      (performAll as h).ClosesOnly ((performAll as h).abandonSession i) i o
  /-- If it is not open, the document stays as it is. -/
  giveUp : ∀ i, (∀ o, ¬ (performAll as h).Observes i o) →
    ((performAll as h).closeSession i).document = (performAll as h).document ∧
      ((performAll as h).abandonSession i).document = (performAll as h).document
  /-- Once closed, a session never does anything again. -/
  ended : ∀ bs cs, as = bs ++ cs → ∀ i, (performAll bs h).sessions[i]? = some .closed →
    (performAll as h).Inert i

theorem document_closeSession {i : Nat} (hn : ∀ o, ¬ h.Observes i o) :
    (h.closeSession i).document = h.document ∧ (h.abandonSession i).document = h.document := by
  have hclose : (h.closeSession i).document = h.document := by
    unfold closeSession
    split
    · rename_i c o hi
      exact absurd ⟨c, hi⟩ (hn o)
    · rfl
    · rfl
  refine ⟨hclose, ?_⟩
  unfold abandonSession
  split
  · rfl
  · exact hclose

/-- In every run on a document that operations lead to, in which no operation is given what is a
session's own. -/
theorem lifecycle (ops : List Operation) (as : List Action)
    (hs : (start (Operation.runAll ops new)).SparesAll as) :
    (start (Operation.runAll ops new)).Lifecycle as := by
  have hw : (start (Operation.runAll ops new)).document.WellFormed :=
    wellFormed_runAll wellFormed_new ops
  have hstart : (start (Operation.runAll ops new)).Enrolled
      (List.range (start (Operation.runAll ops new)).document.mailboxes.size) := by
    have hhoused : (Operation.runAll ops new).Housed :=
      housed_runAll wellFormed_new (fun g hg => by simp [new] at hg) ops
    constructor
    case accounted =>
      intro g hg
      have := hhoused g hg
      exact .inr (List.mem_range.mpr (by simpa [start] using this))
    case issued => exact fun o ho => List.mem_range.mp ho
    case registered | listening | own | apart => simp [Observes, start]
  generalize start (Operation.runAll ops new) = h at *
  have he := hstart.performAll hw hs
  constructor
  case unready =>
    intro hr has i
    exact attach_of_not_ready (by rw [ready_performAll hw has, hr]; decide) i
  case registered =>
    exact fun i o hi => ⟨he.registered i o hi, fun j hj => he.own j i o hj hi, he.apart i o hi⟩
  case accounted => exact he.accounted
  case gone =>
    rintro bs cs rfl i o hi hgone
    have hbs : h.SparesAll bs := fun ds op es hds =>
      hs ds op (es ++ cs) (by rw [hds, List.append_assoc]; rfl)
    have heb := hstart.performAll hw hbs
    have hwb := wellFormed_performAll hw bs
    refine List.filter_eq_nil_iff.mpr fun g hg hgo => ?_
    obtain rfl := of_decide_eq_true hgo
    rcases he.accounted g hg with ⟨j, hj⟩ | hmem
    · -- whoever observes as `o` now did so then, and is the session itself
      have hj' : (performAll bs h).Observes j g.id := by
        rw [performAll_append] at hj
        exact observes_of_performAll hwb hj (heb.lt_size hi)
      exact hgone (heb.own j i _ hj' hi ▸ hj)
    · rw [subscribed_append, ← List.append_assoc] at hmem
      rcases List.mem_append.mp hmem with hmem | hmem
      · exact heb.apart i _ hi hmem
      · exact Nat.not_lt_of_le (size_le_of_mem_subscribed hwb hmem) (heb.lt_size hi)
  case close =>
    intro i o hi
    have hclose := closesOnly he hi
    obtain ⟨c, hc⟩ := hi
    simp only [abandonSession, closeSession, hc]
    exact ⟨hclose, hclose⟩
  case giveUp => exact fun i hn => document_closeSession hn
  case ended =>
    rintro bs cs rfl i hi
    rw [performAll_append]
    exact inert_of_closed (closed_performAll (wellFormed_performAll hw bs) cs hi)

/-- Two sessions and somebody else observe the body. The first session is closed when it has been
told of something that it has not handled. -/
def closedSession : List Action :=
  [.openSession "", .run 0, .operate (.observe new.body true), .markReady, .run 0, .openSession "",
    .run 1, .operate (.createElement "p"), .operate (.appendChild new.body ⟨3, 0⟩),
    .closeSession 0, .run 0]

theorem lifecycle_closedSession :
    (start (Operation.runAll [] new)).SparesAll closedSession ∧
      (start (Operation.runAll [] new)).Lifecycle closedSession ∧
      (performAll closedSession (start new)).Inert 0 ∧
      (performAll closedSession (start new)).Observes 1 2 ∧
      (performAll closedSession (start new)).document.observers.map (·.id) = [0, 2] ∧
      (performAll closedSession (start new)).document.queued 1 ≠ [] := by
  have hs : (start (Operation.runAll [] new)).SparesAll closedSession := by
    intro bs op cs has i o _
    have hmem : Action.operate op ∈ closedSession := by simp [has]
    simp only [closedSession, List.mem_cons, reduceCtorEq, Action.operate.injEq, List.not_mem_nil,
      false_or, or_false] at hmem
    rcases hmem with rfl | rfl | rfl <;> simp [Operation.observer?]
  have hl := lifecycle [] closedSession hs
  refine ⟨hs, hl, ?_, ⟨"", by decide +kernel⟩, by decide +kernel, by decide +kernel⟩
  exact hl.ended (closedSession.take 10) (closedSession.drop 10) rfl 0 (by decide +kernel)

end Host

end CopyControl
