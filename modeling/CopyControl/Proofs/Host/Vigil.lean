import CopyControl.Proofs.Enhance.Backlog
import CopyControl.Proofs.Host.Actions
import CopyControl.Proofs.Markdown.Fragment

/-!
No block is forgotten while a session observes.

The invariant is `Vigil`: each open session attends to the body, has been told of something if a
block below the body has no mark, and is queued if it has been told of something. Work on the
document keeps it because a new link is always reported (`Changes.vigilant`), and a session that
takes what it has been told of runs a pass at once, after which no such block is left.

* §1 what others may do
* §2 the invariant
* §3 work on the document
* §4 sessions
* §5 runs
-/

namespace CopyControl

open Relation Document

/-! ## §1 What others may do -/

/-- The observer that an operation takes from, be it its registration or its records. -/
def Operation.observer? : Operation → Option ObserverId
  | disconnect o | takeRecords o | nextBatch o | dropSubscription o => some o
  | _ => none

namespace Document

variable {d d' : Document} {o : ObserverId} {top : NodeId}

theorem Backlog.congr (h : d.SameArena d') (hb : d'.Backlog top) : d.Backlog top := by
  obtain ⟨-, hk, hp, -⟩ := lookups_congr h.slots
  obtain ⟨c, pre, hb, hm, ha⟩ := hb
  refine ⟨c, pre, ⟨?_, ?_, ?_⟩, ?_, ?_⟩
  · rw [← tag?_eq_of_kind? (congrFun hk c), hb.tag_code]
  · rw [← hp, hb.link]
  · rw [← tag?_eq_of_kind? (congrFun hk pre), hb.tag_pre]
  · rw [← hasClass_congr (congrFun hk pre), hm]
  · exact h.atOrAbove_iff.mp ha

theorem InPlace.congr (hp : d.InPlace) (hw : d.WellFormed) (h : d.SameArena d') : d'.InPlace := by
  obtain ⟨hc, hk, -, -⟩ := lookups_congr h.slots
  have hroot : d'.root = d.root := congrArg Prod.fst h.landmarks
  have hbody : d'.body = d.body := congrArg Prod.snd h.landmarks
  obtain ⟨hlive, ha⟩ := hw.isConnected_iff.mp hp.body
  refine ⟨?_, (h.wellFormed hw).isConnected_iff.mpr ⟨?_, ?_⟩⟩
  · rw [hroot, tag?_eq_of_kind? (congrFun hk d.root), hp.root]
  · rw [hbody, hc, hlive]
  · rw [hroot, hbody]
    exact h.atOrAbove_iff.mpr ha

/-- An observer that keeps its registration and its mailbox stays vigilant. -/
theorem Vigilant.congr (hv : d.Vigilant o top) (h : d.SameArena d')
    (hr : ⟨o, top, true⟩ ∈ d'.observers) (hm : d'.mailboxes[o]? = d.mailboxes[o]?) :
    d'.Vigilant o top := by
  refine ⟨⟨hr, ?_⟩, fun hb => ?_⟩
  · rw [isListening, hm]
    exact hv.attends.listening
  · rw [Told, queued, hm]
    exact hv.told (hb.congr h)

theorem Vigilant.observe (hv : d.Vigilant o top) (target : NodeId) (subtree : Bool) :
    (d.observe target subtree).2.Vigilant o top := by
  have hlt := lt_size_of_isListening hv.attends.listening
  refine hv.congr ⟨rfl, rfl, rfl, rfl⟩ (List.mem_append_left _ hv.attends.registered) ?_
  rw [Document.observe, Array.getElem?_push, if_neg (Nat.ne_of_lt hlt)]

theorem Vigilant.disconnect {p : ObserverId} (hv : d.Vigilant o top) (h : o ≠ p) :
    (d.disconnect p).Vigilant o top :=
  hv.congr ⟨rfl, rfl, rfl, rfl⟩
    (List.mem_filter.mpr ⟨hv.attends.registered, by simpa using h⟩) rfl

theorem Vigilant.modify {p : ObserverId} (hv : d.Vigilant o top) (h : o ≠ p)
    (f : Mailbox → Mailbox) :
    Vigilant { d with mailboxes := d.mailboxes.modify p f } o top := by
  refine hv.congr ⟨rfl, rfl, rfl, rfl⟩ hv.attends.registered ?_
  rw [Array.getElem?_modify, if_neg (Ne.symm h)]

/-- What is done to other observers is nothing to this one. -/
theorem Vigilant.run (hv : d.Vigilant o top) {op : Operation} (ho : ¬ op.OnNodes)
    (hs : op.observer? ≠ some o) : (op.run d).Vigilant o top := by
  cases op with
  | observe target subtree => exact hv.observe target subtree
  | disconnect p => exact hv.disconnect fun h => hs (h ▸ rfl)
  | takeRecords p => exact hv.modify (fun h => hs (h ▸ rfl)) _
  | dropSubscription p => exact hv.modify (fun h => hs (h ▸ rfl)) _
  | nextBatch p =>
    simp only [Operation.run, nextBatch]
    split
    · exact hv
    · exact hv.modify (fun h => hs (h ▸ rfl)) _
  | markReady => exact hv.congr ⟨rfl, rfl, rfl, rfl⟩ hv.attends.registered rfl
  | _ => exact absurd trivial ho

end Document

namespace Host

variable {h h' : Host} {d : Document} {i : Nat} {o : ObserverId}

/-- The session is open: it observes the body as `o`. -/
def Observes (h : Host) (i : Nat) (o : ObserverId) : Prop :=
  ∃ clipboard, h.sessions[i]? = some (.observing clipboard o)

/-- The operation takes nothing from the observer of an open session. -/
def Spares (h : Host) (op : Operation) : Prop :=
  ∀ i o, h.Observes i o → op.observer? ≠ some o

/-- One action that leaves the root and the body in their places, and the observers of open
sessions to these sessions. -/
inductive Undisturbed (h : Host) : Host → Prop
  | step (a : Action) (hs : ∀ op, a = .operate op → h.Spares op)
      (hp : (a.perform h).document.InPlace) : Undisturbed h (a.perform h)

/-! ## §2 The invariant -/

/-- Every open session attends to the body as an observer of its own, and knows of every block
below the body that has no mark. -/
structure Guarded (h : Host) : Prop where
  wellFormed : h.document.WellFormed
  inPlace : h.document.InPlace
  vigilant : ∀ i o, h.Observes i o → h.document.Vigilant o h.document.body
  own : ∀ i j o, h.Observes i o → h.Observes j o → i = j

/-- And if it has been told of something, it is queued. -/
structure Vigil (h : Host) : Prop extends h.Guarded where
  due : ∀ i o, h.Observes i o → h.document.Told o → .observe i ∈ h.queue

theorem Guarded.congr (hg : h.Guarded) (hd : h'.document = h.document)
    (hs : h'.sessions = h.sessions) : h'.Guarded := by
  have ho : ∀ i o, h'.Observes i o → h.Observes i o := by
    intro i o ho
    rwa [Observes, hs] at ho
  refine ⟨hd ▸ hg.wellFormed, hd ▸ hg.inPlace, fun i o hi => ?_, fun i j o hi hj => ?_⟩
  · rw [hd]
    exact hg.vigilant i o (ho i o hi)
  · exact hg.own i j o (ho i o hi) (ho j o hj)

/-- More work does no harm. -/
theorem Vigil.mono (hv : h.Vigil) (hd : h'.document = h.document) (hs : h'.sessions = h.sessions)
    (hq : ∀ w ∈ h.queue, w ∈ h'.queue) : h'.Vigil where
  toGuarded := hv.toGuarded.congr hd hs
  due i o hi ht := by
    rw [Observes, hs] at hi
    rw [hd] at ht
    exact hq _ (hv.due i o hi ht)

theorem Guarded.lt_size (hg : h.Guarded) (ho : h.Observes i o) :
    o < h.document.mailboxes.size :=
  lt_size_of_isListening (hg.vigilant i o ho).attends.listening

/-! ### Waking -/

theorem sessionOf?_of_observes (ho : h.Observes i o)
    (hown : ∀ j, h.Observes j o → j = i) : h.sessionOf? o = some i := by
  obtain ⟨clipboard, hi⟩ := ho
  obtain ⟨hlt, hget⟩ := List.getElem?_eq_some_iff.mp hi
  refine List.findIdx?_eq_some_iff_getElem.mpr ⟨hlt, by simp [hget], fun j hj => ?_⟩
  have hjlt : j < h.sessions.length := by omega
  cases hs : h.sessions[j] with
  | waiting _ _ | closed => simp
  | observing c p =>
    rw [decide_eq_true_iff]
    rintro rfl
    have := hown j ⟨c, by rw [List.getElem?_eq_getElem hjlt, hs]⟩
    omega

theorem mem_queue_wakeObserver (hs : h.sessionOf? o = some i) (ht : h.document.Told o)
    (top : NodeId) (subtree : Bool) :
    .observe i ∈ (h.wakeObserver ⟨o, top, subtree⟩).queue := by
  have hne : (h.document.queued o).isEmpty = false := by simpa [Told] using ht
  simp only [wakeObserver, hs, hne, Bool.false_or]
  split
  · rename_i hq
    simpa using hq
  · simp [enqueue]

/-- Whoever has been told of something and is registered is queued. -/
theorem mem_queue_foldl_wakeObserver {rs : List Registration} {top : NodeId} {subtree : Bool}
    (hr : ⟨o, top, subtree⟩ ∈ rs) (hs : h.sessionOf? o = some i) (ht : h.document.Told o) :
    .observe i ∈ (rs.foldl wakeObserver h).queue := by
  induction rs generalizing h with
  | nil => simp at hr
  | cons r rs ih =>
    obtain ⟨hd, hs', -⟩ := wakeObserver_spec h r
    rw [List.foldl_cons]
    rcases List.mem_cons.mp hr with rfl | hr
    · have hmem := mem_queue_wakeObserver hs ht top subtree
      exact (foldl_wakeObserver_spec _ rs).2.2.mem_queue hmem
    · refine ih hr ?_ (hd ▸ ht)
      rwa [sessionOf?, hs']

theorem Guarded.wake (hg : h.Guarded) : h.wake.Vigil := by
  obtain ⟨hd, hs, -⟩ := wake_spec h
  refine ⟨hg.congr hd hs, fun i o hi ht => ?_⟩
  rw [Observes, hs] at hi
  rw [hd] at ht
  exact mem_queue_foldl_wakeObserver (hg.vigilant i o hi).attends.registered
    (sessionOf?_of_observes hi fun j hj => hg.own j i o hj hi) ht

/-! ## §3 Work on the document -/

theorem Guarded.of_changes (hg : h.Guarded) (hc : Changes h.document d) (hp : d.InPlace) :
    Guarded { h with document := d } where
  wellFormed := hc.wellFormed hg.wellFormed
  inPlace := hp
  vigilant i o hi := by
    have hbody : d.body = h.document.body := congrArg Prod.snd hc.landmarks_eq
    exact hbody ▸ hc.vigilant hg.wellFormed (hg.vigilant i o hi)
  own := hg.own

theorem Guarded.edit {α : Type} (hg : h.Guarded) {e : Edit α} (he : OnlyChanges e)
    (hp : (h.edit e).2.document.InPlace) : (h.edit e).2.Vigil := by
  rw [(edit_spec h e).1] at hp
  rw [edit_eq]
  exact (hg.of_changes (he h.document hg.wellFormed) hp).wake

theorem Guarded.showLabel (hg : h.Guarded) {control : NodeId} {l : ControlLabel}
    (hp : (h.showLabel control l).document.InPlace) : (h.showLabel control l).Vigil := by
  have hedit := edit_spec h (setLabel control l)
  rw [(showLabel_spec h control l).1, ← hedit.1] at hp
  have hv := hg.edit (onlyChanges_setText control l.text) hp
  unfold Host.showLabel
  cases hr : h.edit (setLabel control l) with
  | mk r h' =>
    simp only [setLabel] at hr
    rw [hr] at hv
    cases r with
    | ok _ => exact hv
    | error e => exact hv.mono rfl rfl fun _ => id

/-- A pass leaves no block behind, so it does not matter what observers had been told of before
it, if only they attend to the body. -/
theorem guarded_pass (hw : h.document.WellFormed) (hp : h.document.InPlace)
    (ha : ∀ i o, h.Observes i o → h.document.Attends o h.document.body)
    (hown : ∀ i j o, h.Observes i o → h.Observes j o → i = j) (clipboard : String) :
    (h.pass clipboard).2.Guarded := by
  have hc := changes_enhance hw clipboard
  have hbody : (h.document.enhance clipboard).document.body = h.document.body :=
    congrArg Prod.snd hc.landmarks_eq
  refine ⟨hc.wellFormed hw, hp.enhance hw clipboard, fun i o hi => ?_, hown⟩
  rw [show (h.pass clipboard).2.document = (h.document.enhance clipboard).document from rfl, hbody]
  exact ⟨hc.attends (ha i o hi), fun hb => absurd hb (not_backlog_enhance hw hp clipboard)⟩

theorem Guarded.pass (hg : h.Guarded) (clipboard : String) : (h.pass clipboard).2.Guarded :=
  guarded_pass hg.wellFormed hg.inPlace (fun i o hi => (hg.vigilant i o hi).attends) hg.own
    clipboard

theorem Guarded.enhance (hg : h.Guarded) (clipboard : String) : (h.enhance clipboard).2.Vigil :=
  (hg.pass clipboard).wake

theorem Vigil.flushSession (hv : h.Vigil) (i : Nat) : (h.flushSession i).2.Vigil := by
  unfold Host.flushSession
  split
  · exact hv.enhance _
  · exact hv

theorem Vigil.write (hv : h.Vigil) {block control : NodeId} {clipboard text : String}
    (hp : (h.write block control clipboard text).2.document.InPlace) :
    (h.write block control clipboard text).2.Vigil := by
  obtain ⟨h₁, hd, hs, hc, heq⟩ := write_eq h block control clipboard text
  rw [heq] at hp ⊢
  have hv₁ : h₁.Vigil := hv.mono hd hs fun w => hc.mem_queue
  exact (hv₁.showLabel hp).mono rfl rfl fun w hw => List.mem_append_left _ hw

theorem Vigil.beginClick (hv : h.Vigil) {n : Nat} {block control : NodeId} {clipboard : String}
    (hp : (h.beginClick n block control clipboard).document.InPlace) :
    (h.beginClick n block control clipboard).Vigil := by
  by_cases hd : (h.clipboard clipboard).delay = 0
  · rw [beginClick_of_prompt hd] at hp ⊢
    exact hv.write hp
  · rw [beginClick_of_slow hd]
    exact hv.mono rfl rfl fun _ => id

theorem Guarded.operate (hg : h.Guarded) {op : Operation} (hs : h.Spares op)
    (hp : (op.run h.document).InPlace) : Guarded { h with document := op.run h.document } := by
  by_cases ho : op.OnNodes
  · exact hg.of_changes (makes_run hg.wellFormed op ho).changes hp
  · have ha := sameArena_run h.document ho
    refine ⟨ha.wellFormed hg.wellFormed, hp, fun i o hi => ?_, hg.own⟩
    have hbody : (op.run h.document).body = h.document.body := congrArg Prod.snd ha.landmarks
    exact hbody ▸ (hg.vigilant i o hi).run ho (hs i o hi)

/-! ## §4 Sessions -/

theorem observes_of_setSession {j : Nat} {s : Session}
    (ho : (h.setSession i s).Observes j o) :
    (j = i ∧ ∃ clipboard, s = .observing clipboard o) ∨ (j ≠ i ∧ h.Observes j o) := by
  obtain ⟨clipboard, hj⟩ := ho
  rw [setSession, List.getElem?_set] at hj
  split at hj
  · rename_i hij
    split at hj
    · exact .inl ⟨hij.symm, clipboard, Option.some.inj hj⟩
    · simp at hj
  · rename_i hij
    exact .inr ⟨Ne.symm hij, clipboard, hj⟩

/-- What sessions do leaves nodes and old mailboxes alone, and brings at most one new observer,
which is queued at once. -/
theorem Vigil.change (hv : h.Vigil) (ha : h.document.SameArena h'.document)
    (hm : ∀ p < h.document.mailboxes.size,
      h'.document.mailboxes[p]? = h.document.mailboxes[p]?)
    (hq : ∀ w ∈ h.queue, w ∈ h'.queue)
    (ho : ∀ j p, h'.Observes j p → h'.document.Vigilant p h.document.body ∧
      (h.Observes j p ∨ (j = i ∧ p = h.document.mailboxes.size ∧ .observe i ∈ h'.queue))) :
    h'.Vigil := by
  have hbody : h'.document.body = h.document.body := congrArg Prod.snd ha.landmarks
  refine ⟨⟨ha.wellFormed hv.wellFormed, hv.inPlace.congr hv.wellFormed ha, fun j p hj => ?_,
    fun j k p hj hk => ?_⟩, fun j p hj ht => ?_⟩
  · rw [hbody]
    exact (ho j p hj).1
  · rcases (ho j p hj).2 with hj | ⟨rfl, hp, -⟩ <;> rcases (ho k p hk).2 with hk | ⟨rfl, hp', -⟩
    · exact hv.own j k p hj hk
    · exact absurd (hv.lt_size hj) (hp' ▸ Nat.lt_irrefl _)
    · exact absurd (hv.lt_size hk) (hp ▸ Nat.lt_irrefl _)
    · rfl
  · rcases (ho j p hj).2 with hj | ⟨rfl, -, hmem⟩
    · rw [Told, queued, hm p (hv.lt_size hj)] at ht
      exact hq _ (hv.due j p hj ht)
    · exact hmem

theorem Vigil.fewer (hv : h.Vigil) (ha : h.document.SameArena h'.document)
    (hm : h'.document.mailboxes = h.document.mailboxes) (hq : ∀ w ∈ h.queue, w ∈ h'.queue)
    (ho : ∀ j p, h'.Observes j p → h.Observes j p ∧ h'.document.Vigilant p h.document.body) :
    h'.Vigil :=
  hv.change (i := 0) ha (fun p _ => by rw [hm]) hq fun j p hj => ⟨(ho j p hj).2, .inl (ho j p hj).1⟩

/-- A session that is not set to observe is one less to care for. -/
theorem Vigil.setSession (hv : h.Vigil) (i : Nat) {s : Session}
    (hs : ∀ clipboard o, s ≠ .observing clipboard o) : (h.setSession i s).Vigil := by
  refine hv.fewer ⟨rfl, rfl, rfl, rfl⟩ rfl (fun _ => id) fun j p hj => ?_
  rcases observes_of_setSession hj with ⟨-, c, hc⟩ | ⟨-, hj⟩
  · exact absurd hc (hs c p)
  · exact ⟨hj, hv.vigilant j p hj⟩

theorem Vigil.beginSession (hv : h.Vigil) (clipboard : String) :
    (h.beginSession clipboard).2.Vigil := by
  refine hv.fewer ⟨rfl, rfl, rfl, rfl⟩ rfl (fun w hw => List.mem_append_left _ hw) fun j p hj => ?_
  suffices ho : h.Observes j p from ⟨ho, hv.vigilant j p ho⟩
  obtain ⟨c, hc⟩ := hj
  have hlt := (List.getElem?_eq_some_iff.mp hc).1
  simp only [Host.beginSession, enqueue, List.length_append, List.length_singleton] at hc hlt
  rw [List.getElem?_append] at hc
  split at hc
  · exact ⟨c, hc⟩
  · rw [show j - h.sessions.length = 0 by omega] at hc
    simp at hc

theorem Vigil.closeSession (hv : h.Vigil) (i : Nat) : (h.closeSession i).Vigil := by
  unfold Host.closeSession
  split
  · rename_i c o hi
    refine hv.fewer ⟨rfl, rfl, rfl, rfl⟩ rfl (fun _ => id) fun j p hj => ?_
    rcases observes_of_setSession hj with ⟨-, c, hc⟩ | ⟨hne, hj⟩
    · simp at hc
    · have hj : h.Observes j p := hj
      refine ⟨hj, (hv.vigilant j p hj).disconnect ?_⟩
      rintro rfl
      exact hne (hv.own j i p hj ⟨c, hi⟩)
  · exact hv.setSession i (by simp)
  · exact hv

theorem Vigil.abandonSession (hv : h.Vigil) (i : Nat) : (h.abandonSession i).Vigil := by
  unfold Host.abandonSession
  split
  · exact hv.setSession i (by simp)
  · exact hv.closeSession i

theorem Vigil.markReady (hv : h.Vigil) : h.markReady.Vigil := by
  obtain ⟨hd, hs, hc⟩ := markReady_spec h
  refine hv.fewer (hd ▸ ⟨rfl, rfl, rfl, rfl⟩) (by rw [hd]; rfl) (fun w => hc.mem_queue)
    fun j p hj => ?_
  rw [Observes, hs] at hj
  rw [hd]
  exact ⟨hj, (hv.vigilant j p hj).congr ⟨rfl, rfl, rfl, rfl⟩ (hv.vigilant j p hj).attends.registered
    rfl⟩

/-! ### Attaching -/

theorem attends_observe (d : Document) (top : NodeId) :
    (d.observe top true).2.Attends d.mailboxes.size top where
  registered := List.mem_append_right _ (List.mem_singleton.mpr rfl)
  listening := by simp [Document.observe, isListening]

/-- A session that observes from when no block is without its mark misses none. -/
theorem Vigil.observeBody (hv : h.Vigil) (hb : ¬ h.document.Backlog h.document.body) (i : Nat)
    (clipboard : String) (wanted : Bool) : (h.observeBody i clipboard wanted).Vigil := by
  have ha : h.document.SameArena (h.document.observe h.document.body true).2 :=
    ⟨rfl, rfl, rfl, rfl⟩
  have hm : ∀ p < h.document.mailboxes.size,
      (h.document.observe h.document.body true).2.mailboxes[p]? = h.document.mailboxes[p]? := by
    intro p hp
    rw [Document.observe, Array.getElem?_push, if_neg (Nat.ne_of_lt hp)]
  unfold Host.observeBody
  dsimp only
  split
  case isTrue =>
    have hmem : Work.observe i ∈ h.queue ++ [.observe i] := by simp
    refine hv.change (i := i) ha hm (fun w hw => List.mem_append_left _ hw) fun j p hj => ?_
    rcases observes_of_setSession hj with ⟨rfl, c, hc⟩ | ⟨-, hj⟩
    · obtain rfl := (Session.observing.inj hc).2
      exact ⟨⟨attends_observe _ _, fun hb' => absurd (hb'.congr ha) hb⟩, .inr ⟨rfl, rfl, hmem⟩⟩
    · exact ⟨(hv.vigilant j p hj).observe _ _, .inl hj⟩
  case isFalse =>
    refine hv.change (i := i) ⟨rfl, rfl, rfl, rfl⟩ hm (fun _ => id) fun j p hj => ?_
    rcases observes_of_setSession hj with ⟨-, c, hc⟩ | ⟨-, hj⟩
    · simp at hc
    · have hj : h.Observes j p := hj
      exact ⟨((hv.vigilant j p hj).observe _ _).disconnect (Nat.ne_of_lt (hv.lt_size hj)), .inl hj⟩

theorem Vigil.attach (hv : h.Vigil) (i : Nat) : (h.attach i).Vigil := by
  cases hi : h.sessions[i]? with
  | none =>
    rw [Host.attach, hi]
    exact hv
  | some s =>
    cases s with
    | waiting clipboard wanted =>
      rw [attach_of_waiting hi]
      split
      · have hv' : ((h.enhance clipboard).2.record (attached (h.enhance clipboard).1)).Vigil :=
          (hv.enhance clipboard).mono rfl rfl fun _ => id
        refine hv'.observeBody ?_ i clipboard wanted
        have hd := h.enhance_document clipboard
        have hbody : (h.document.enhance clipboard).document.body = h.document.body :=
          congrArg Prod.snd (changes_enhance hv.wellFormed clipboard).landmarks_eq
        show ¬ (h.enhance clipboard).2.document.Backlog (h.enhance clipboard).2.document.body
        rw [hd, hbody]
        exact not_backlog_enhance hv.wellFormed hv.inPlace clipboard
      · exact hv
    | observing _ _ | closed =>
      rw [Host.attach, hi]
      exact hv

/-! ### The observer of a session -/

/-- What is taken from an observer is followed by a pass, so nothing is lost with it. -/
theorem Guarded.handleBatches (hg : h.Guarded) (clipboard : String) (o : ObserverId) (n : Nat) :
    (h.handleBatches clipboard o n).Guarded := by
  induction n generalizing h with
  | zero => exact hg
  | succ n ih =>
    unfold Host.handleBatches
    split
    · exact hg
    · exact hg.congr rfl rfl
    · rename_i records d heq
      have hd : d = (h.document.takeRecords o).2 := by
        unfold nextBatch at heq
        split at heq
        · split at heq <;> simp at heq
        · exact (Prod.mk.inj heq).2.symm
      subst hd
      have ha : h.document.SameArena (h.document.takeRecords o).2 := ⟨rfl, rfl, rfl, rfl⟩
      refine ih (guarded_pass ?_ ?_ (fun i p hi => ?_) ?_ clipboard)
      · exact ha.wellFormed hg.wellFormed
      · exact hg.inPlace.congr hg.wellFormed ha
      · have hatt := (hg.vigilant i p hi).attends
        obtain ⟨m, hm, hl⟩ := isListening_iff.mp hatt.listening
        refine ⟨hatt.registered, isListening_iff.mpr ?_⟩
        by_cases hop : o = p
        · exact ⟨{ m with queue := [] },
            by simp [takeRecords, record, Array.getElem?_modify, hop, hm], hl⟩
        · exact ⟨m, by simp [takeRecords, record, Array.getElem?_modify, hop, hm], hl⟩
      · exact hg.own

/-- Running a session's observer makes up for taking it from the queue. -/
theorem Guarded.runObserver (hg : h.Guarded)
    (hdue : ∀ j p, h.Observes j p → j ≠ i → h.document.Told p → .observe j ∈ h.queue) :
    (h.runObserver i).Vigil := by
  unfold Host.runObserver
  split
  · exact (hg.handleBatches _ _ _).wake
  · rename_i hi
    refine ⟨hg, fun j p hj ht => hdue j p hj ?_ ht⟩
    rintro rfl
    obtain ⟨c, hc⟩ := hj
    exact hi c p hc

/-! ## §5 Runs -/

theorem Vigil.run (hv : h.Vigil) {w : Work} (hw : ∀ j, w ≠ .observe j)
    (hp : (h.run w).document.InPlace) : (h.run w).Vigil := by
  cases w with
  | click n block control clipboard => exact hv.beginClick hp
  | write n block control clipboard text => exact hv.write hp
  | note n text => exact hv.mono rfl rfl fun _ => id
  | armRevert control => exact hv.mono rfl rfl fun _ => id
  | revert control => exact hv.showLabel hp
  | attach j => exact hv.attach j
  | observe j => exact absurd rfl (hw j)

/-- One action keeps the invariant. -/
theorem Vigil.perform (hv : h.Vigil) (a : Action) (hs : ∀ op, a = .operate op → h.Spares op)
    (hp : (a.perform h).document.InPlace) : (a.perform h).Vigil := by
  cases a with
  | operate op =>
    have hp' : (op.run h.document).InPlace := by
      simpa only [Action.perform, (wake_spec _).1] using hp
    exact (hv.operate (hs op rfl) hp').wake
  | reload events => exact hv.edit (Markdown.onlyChanges_replaceBody events) hp
  | enhance clipboard => exact hv.enhance clipboard
  | flush j => exact hv.flushSession j
  | click node => exact hv.mono rfl rfl fun w hw => List.mem_append_left _ hw
  | handle block control clipboard => exact hv.beginClick hp
  | run k =>
    cases hk : h.queue[k]? with
    | none =>
      rw [Action.perform_run_of_none hk]
      exact hv
    | some w =>
      rw [Action.perform_run hk] at hp ⊢
      have hrest : ∀ v ∈ h.queue, v ≠ w → v ∈ h.queue.eraseIdx k := fun v =>
        Action.mem_eraseIdx_of_ne hk
      have hg : Guarded { h with queue := h.queue.eraseIdx k } := hv.toGuarded.congr rfl rfl
      by_cases hw : ∃ j, w = .observe j
      · obtain ⟨j, rfl⟩ := hw
        refine hg.runObserver fun l p hl hne ht => hrest _ (hv.due l p hl ht) ?_
        exact fun heq => hne (Work.observe.inj heq)
      · have hw : ∀ j, w ≠ .observe j := fun j hj => hw ⟨j, hj⟩
        refine Vigil.run ⟨hg, fun l p hl ht => hrest _ (hv.due l p hl ht) ?_⟩ hw hp
        exact Ne.symm (hw l)
  | advance time => exact hv.mono rfl rfl fun w hw => List.mem_append_left _ hw
  | openSession clipboard => exact hv.beginSession clipboard
  | closeSession j => exact hv.closeSession j
  | abandonSession j => exact hv.abandonSession j
  | markReady => exact hv.markReady
  | setClipboard name link => exact hv.mono rfl rfl fun _ => id
  | takeNotes => exact hv.mono rfl rfl fun _ => id

theorem vigil_start (hw : d.WellFormed) (hp : d.InPlace) : (start d).Vigil where
  wellFormed := hw
  inPlace := hp
  vigilant _ _ := by simp [Observes, start]
  own _ _ _ := by simp [Observes, start]
  due _ _ := by simp [Observes, start]

/-- Actions that let the root and the body be, one after the other. -/
abbrev UndisturbedRun : Host → Host → Prop :=
  ReflTransGen Undisturbed

theorem Vigil.undisturbedRun (hv : h.Vigil) (hr : UndisturbedRun h h') : h'.Vigil := by
  induction hr with
  | refl => exact hv
  | tail _ hs ih =>
    cases hs with
    | step a hs hp => exact ih.perform a hs hp

/-- While a session is open, a block below the body that has no mark is announced to it, and it is
queued for a further pass. With nothing announced to it, every block below the body has its
mark. -/
theorem no_block_forgotten (ops : List Operation) (h : Host)
    (hp : (Operation.runAll ops .new).InPlace)
    (hr : UndisturbedRun (start (Operation.runAll ops .new)) h) (i : Nat) (o : ObserverId)
    (hi : h.Observes i o) :
    (∀ code pre, h.document.Block code pre → h.document.Above h.document.body code →
      h.document.hasClass pre Enhance.enhancedClass = false →
        h.document.queued o ≠ [] ∧ .observe i ∈ h.queue) ∧
    (h.document.queued o = [] → ∀ code pre, h.document.Block code pre →
      h.document.Above h.document.body code →
        h.document.hasClass pre Enhance.enhancedClass) := by
  have hv := (vigil_start (wellFormed_runAll wellFormed_new ops) hp).undisturbedRun hr
  have hmain : ∀ code pre, h.document.Block code pre →
      h.document.Above h.document.body code →
      h.document.hasClass pre Enhance.enhancedClass = false → h.document.Told o := by
    intro code pre hb ha hm
    refine (hv.vigilant i o hi).told ⟨code, pre, hb, hm, ?_⟩
    obtain ⟨p, hl, ha⟩ := TransGen.head'_iff.mp ha
    obtain rfl := Option.some.inj (hl.symm.trans hb.link)
    exact ha
  refine ⟨fun code pre hb ha hm => ?_, fun hq code pre hb ha => ?_⟩
  · have ht := hmain code pre hb ha hm
    exact ⟨ht, hv.due i o hi ht⟩
  · cases hm : h.document.hasClass pre Enhance.enhancedClass with
    | true => rfl
    | false => exact absurd hq (hmain code pre hb ha hm)

/-- A page that is ready, with a block that is not in it yet. -/
def latePage : List Operation :=
  [.createElement "pre", .createElement "code", .appendChild ⟨3, 0⟩ ⟨4, 0⟩, .markReady]

/-- A session is opened and attached, and then the block is put into the page. -/
def lateBlock : Host :=
  (Action.operate (.appendChild new.body ⟨3, 0⟩)).perform
    ((Action.run 0).perform ((Action.openSession "").perform
      (start (Operation.runAll latePage new))))

theorem undisturbedRun_lateBlock :
    UndisturbedRun (start (Operation.runAll latePage new)) lateBlock := by
  refine .tail (.tail (.single (.step _ ?_ ?_)) (.step _ ?_ ?_)) (.step _ ?_ ?_)
  · simp
  · exact ⟨by decide +kernel, by decide +kernel⟩
  · simp
  · exact ⟨by decide +kernel, by decide +kernel⟩
  · intro op h i o _
    obtain rfl := Action.operate.inj h
    simp [Operation.observer?]
  · exact ⟨by decide +kernel, by decide +kernel⟩

theorem lateBlock_announced :
    (Operation.runAll latePage new).InPlace ∧
      UndisturbedRun (start (Operation.runAll latePage new)) lateBlock ∧
      lateBlock.Observes 0 0 ∧ lateBlock.document.queued 0 ≠ [] ∧
      .observe 0 ∈ lateBlock.queue := by
  have hp : (Operation.runAll latePage new).InPlace := ⟨by decide +kernel, by decide +kernel⟩
  have hi : lateBlock.Observes 0 0 := ⟨"", by decide +kernel⟩
  have hb : lateBlock.document.Block ⟨4, 0⟩ ⟨3, 0⟩ :=
    ⟨by decide +kernel, by decide +kernel, by decide +kernel⟩
  have hl : lateBlock.document.parent? ⟨3, 0⟩ = some lateBlock.document.body := by
    decide +kernel
  have hm : lateBlock.document.hasClass ⟨3, 0⟩ Enhance.enhancedClass = false := by
    decide +kernel
  have h := no_block_forgotten latePage lateBlock hp undisturbedRun_lateBlock 0 0 hi
  exact ⟨hp, undisturbedRun_lateBlock, hi, h.1 _ _ hb (.tail (.single hb.link) hl) hm⟩

end Host

end CopyControl
