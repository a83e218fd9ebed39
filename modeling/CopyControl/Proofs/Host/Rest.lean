import Mathlib.Data.Finset.Card
import Mathlib.Data.Finset.Range
import CopyControl.Proofs.Document.Delivery
import CopyControl.Proofs.Enhance.Again
import CopyControl.Proofs.Host.Effects

/-!
Sessions come to rest.

Every pass changes the tree that the sessions observe, and so queues records for the session that
runs it and for all others. But it also settles the document, and a pass over a settled document
changes nothing and puts nothing out. So in whatever order the sessions take their turns, only the
first turn can change the document; from then on each turn empties one queue and fills none. A
session has one more turn after the first at most, and somebody has something queued until all
queues are empty.

* §1 turns
* §2 turns over a settled document
* §3 any order of turns
* §4 the host's own steps are made of turns
-/

namespace CopyControl

open Document

namespace Host

variable {h h' : Host} {i j : Nat} {is : List Nat} {clipboard : String} {o p : ObserverId}

/-! ## §1 Turns -/

/-- The session observes, and something is queued for it. -/
def IsTold (h : Host) (i : Nat) : Prop :=
  ∃ clipboard o, h.sessions[i]? = some (.observing clipboard o) ∧ h.document.Told o

/-- One batch of a session: it takes all that is queued for it, and runs a pass. -/
def turn (h : Host) (i : Nat) : Host :=
  match h.sessions[i]? with
  | some (.observing clipboard o) => h.handleBatches clipboard o 1
  | _ => h

/-- The host after some turns. -/
def turns (h : Host) (is : List Nat) : Host :=
  is.foldl turn h

/-- Sessions may take their turns in this order: something is queued for each when it comes to
it. -/
def MayTake (h : Host) : List Nat → Prop
  | [] => True
  | i :: is => h.IsTold i ∧ (h.turn i).MayTake is

/-- Whether the pass of a turn changes the document in any way. -/
def passChanges (h : Host) (i : Nat) : Bool :=
  match h.sessions[i]? with
  | some (.observing clipboard o) =>
    let d := (h.document.takeRecords o).2
    (d.enhance clipboard).document ≠ d
  | _ => false

/-- How many passes of some turns change the document. -/
def changingPasses (h : Host) : List Nat → Nat
  | [] => 0
  | i :: is => (h.passChanges i).toNat + (h.turn i).changingPasses is

/-- Nothing is queued for any session. -/
def AtRest (h : Host) : Prop :=
  ∀ i, ¬ h.IsTold i

theorem turns_cons (h : Host) (i : Nat) (is : List Nat) :
    h.turns (i :: is) = (h.turn i).turns is := rfl

theorem turns_append (h : Host) (is js : List Nat) :
    h.turns (is ++ js) = (h.turns is).turns js :=
  List.foldl_append

theorem mayTake_append {js : List Nat} :
    h.MayTake (is ++ js) ↔ h.MayTake is ∧ (h.turns is).MayTake js := by
  induction is generalizing h with
  | nil => simp [MayTake, turns]
  | cons i is ih => rw [List.cons_append, MayTake, ih, MayTake, turns_cons, and_assoc]

theorem IsTold.lt_length (ht : h.IsTold i) : i < h.sessions.length := by
  obtain ⟨c, o, hi, -⟩ := ht
  exact (List.getElem?_eq_some_iff.mp hi).1

/-- Only the document and the sessions matter. -/
theorem IsTold.congr (ht : h.IsTold i) (hd : h'.document = h.document)
    (hs : h'.sessions = h.sessions) : h'.IsTold i := by
  rw [IsTold, hd, hs]
  exact ht

/-- The host after one batch of an observer. -/
def afterBatch (h : Host) (clipboard : String) (o : ObserverId) : Host :=
  (({ h with document := (h.document.takeRecords o).2 }.record
    (batch (h.document.queued o).length)).pass clipboard).2

/-- A run over batches takes the first and goes on. -/
theorem handleBatches_of_told (h : Host) (clipboard : String) (ht : h.document.Told o) (n : Nat) :
    h.handleBatches clipboard o (n + 1) =
      (h.afterBatch clipboard o).handleBatches clipboard o n := by
  rw [handleBatches, nextBatch_eq, if_neg ht, if_neg ht]
  rfl

theorem handleBatches_of_not_told (h : Host) (clipboard : String) (ht : ¬ h.document.Told o)
    (n : Nat) :
    (h.handleBatches clipboard o n).document = h.document ∧
      (h.handleBatches clipboard o n).sessions = h.sessions := by
  have hq : h.document.queued o = [] := not_not.mp ht
  cases n with
  | zero => exact ⟨rfl, rfl⟩
  | succ n =>
    rw [handleBatches, nextBatch_eq, if_pos hq, if_pos hq]
    cases h.document.isRegistered o <;> exact ⟨rfl, rfl⟩

theorem turn_eq (hi : h.sessions[i]? = some (.observing clipboard o)) :
    h.turn i = h.handleBatches clipboard o 1 := by
  rw [turn, hi]

theorem turn_of_told (hi : h.sessions[i]? = some (.observing clipboard o))
    (ht : h.document.Told o) : h.turn i = h.afterBatch clipboard o := by
  rw [turn_eq hi, handleBatches_of_told h clipboard ht]
  rfl

/-- A turn takes what is queued for the session's observer, and runs a pass. -/
theorem turn_spec (hi : h.sessions[i]? = some (.observing clipboard o))
    (ht : h.document.Told o) :
    (h.turn i).document = ((h.document.takeRecords o).2.enhance clipboard).document ∧
      (h.turn i).sessions = h.sessions := by
  rw [turn_of_told hi ht]
  exact ⟨rfl, rfl⟩

theorem sameArena_takeRecords (d : Document) (o : ObserverId) :
    d.SameArena (d.takeRecords o).2 :=
  ⟨rfl, rfl, rfl, rfl⟩

/-- Whatever it was before, after a turn the document is settled. -/
theorem settled_turn (hw : h.document.WellFormed) (ht : h.IsTold i) :
    (h.turn i).document.WellFormed ∧ (h.turn i).document.Settled := by
  obtain ⟨c, o, hi, ht⟩ := ht
  have hw' := (sameArena_takeRecords h.document o).wellFormed hw
  rw [(turn_spec hi ht).1]
  exact ⟨(changes_enhance hw' c).wellFormed hw', settled_enhance hw' c⟩

/-! ## §2 Turns over a settled document -/

section settled
variable (hw : h.document.WellFormed) (hs : h.document.Settled)
include hw hs

/-- Over a settled document a turn only takes what is queued. -/
theorem turn_of_settled (hi : h.sessions[i]? = some (.observing clipboard o))
    (ht : h.document.Told o) :
    (h.turn i).document = (h.document.takeRecords o).2 ∧ (h.turn i).sessions = h.sessions := by
  have harena := sameArena_takeRecords h.document o
  obtain ⟨hd, hs'⟩ := turn_spec hi ht
  exact ⟨hd.trans (enhance_of_settled (harena.wellFormed hw) (hs.congr hw harena) clipboard).1, hs'⟩

theorem passChanges_of_settled (i : Nat) : h.passChanges i = false := by
  unfold passChanges
  split
  · rename_i c o _
    have harena := sameArena_takeRecords h.document o
    have := (enhance_of_settled (harena.wellFormed hw) (hs.congr hw harena) c).1
    simpa using this
  · rfl

/-- A turn empties one queue and fills none. -/
theorem isTold_turn_of_settled (hi : h.IsTold i) (hj : (h.turn i).IsTold j) :
    h.IsTold j ∧ j ≠ i := by
  obtain ⟨c, o, hi, ht⟩ := hi
  obtain ⟨hd, hses⟩ := turn_of_settled hw hs hi ht
  obtain ⟨c', p, hj, htp⟩ := hj
  rw [hses] at hj
  rw [Told, hd, queued_takeRecords] at htp
  split at htp
  · exact absurd rfl htp
  · rename_i hop
    refine ⟨⟨c', p, hj, htp⟩, ?_⟩
    rintro rfl
    rw [hi] at hj
    simp only [Option.some.injEq, Session.observing.injEq] at hj
    exact hop hj.2

/-- Each session has one turn at most, if something is queued for it, and no pass changes
anything. -/
theorem turns_of_settled (ht : h.MayTake is) :
    is.Nodup ∧ (∀ i ∈ is, h.IsTold i) ∧ h.changingPasses is = 0 := by
  induction is generalizing h with
  | nil => simp [changingPasses]
  | cons i is ih =>
    obtain ⟨hw', hs'⟩ := settled_turn hw ht.1
    obtain ⟨hn, hin, hc⟩ := ih hw' hs' ht.2
    have hkeep := fun j hj => isTold_turn_of_settled hw hs ht.1 (hin j hj)
    refine ⟨List.nodup_cons.mpr ⟨fun hmem => (hkeep i hmem).2 rfl, hn⟩, ?_, ?_⟩
    · exact List.forall_mem_cons.mpr ⟨ht.1, fun j hj => (hkeep j hj).1⟩
    · rw [changingPasses, passChanges_of_settled hw hs, hc]
      rfl

/-- The turns can be gone on with until all queues are empty: there are fewer sessions with
something queued after each. -/
theorem exists_rest_of_settled : ∃ js, h.MayTake js ∧ (h.turns js).AtRest := by
  classical
  let told (h : Host) := (Finset.range h.sessions.length).filter h.IsTold
  induction hm : (told h).card using Nat.strong_induction_on generalizing h with
  | _ m ih =>
    by_cases hr : h.AtRest
    · exact ⟨[], trivial, hr⟩
    obtain ⟨i, hi⟩ := not_forall_not.mp hr
    obtain ⟨hw', hs'⟩ := settled_turn hw hi
    have hless : (told (h.turn i)).card < (told h).card := by
      refine Finset.card_lt_card ((Finset.ssubset_iff_of_subset fun j hj => ?_).mpr ⟨i, ?_, ?_⟩)
      · have := (isTold_turn_of_settled hw hs hi (Finset.mem_filter.mp hj).2).1
        exact Finset.mem_filter.mpr ⟨Finset.mem_range.mpr this.lt_length, this⟩
      · exact Finset.mem_filter.mpr ⟨Finset.mem_range.mpr hi.lt_length, hi⟩
      · exact fun hj => (isTold_turn_of_settled hw hs hi (Finset.mem_filter.mp hj).2).2 rfl
    obtain ⟨js, hjs, hrest⟩ := ih _ (hm ▸ hless) hw' hs' rfl
    exact ⟨i :: js, ⟨hi, hjs⟩, hrest⟩

end settled

/-! ## §3 Any order of turns -/

theorem wellFormed_turns (hw : h.document.WellFormed) (ht : h.MayTake is) :
    (h.turns is).document.WellFormed := by
  induction is generalizing h with
  | nil => exact hw
  | cons i is ih => exact ih (settled_turn hw ht.1).1 ht.2

theorem exists_rest (hw : h.document.WellFormed) : ∃ js, h.MayTake js ∧ (h.turns js).AtRest := by
  by_cases hr : h.AtRest
  · exact ⟨[], trivial, hr⟩
  obtain ⟨i, hi⟩ := not_forall_not.mp hr
  obtain ⟨hw', hs'⟩ := settled_turn hw hi
  obtain ⟨js, hjs, hrest⟩ := exists_rest_of_settled hw' hs'
  exact ⟨i :: js, ⟨hi, hjs⟩, hrest⟩

/-- After the first turn each session has one more at most, and only the first can change the
document. -/
theorem turns_bounded (hw : h.document.WellFormed) (ht : h.MayTake is) :
    (∀ i, is.count i ≤ 2) ∧ is.length ≤ h.sessions.length + 1 ∧ h.changingPasses is ≤ 1 := by
  cases is with
  | nil => simp [changingPasses]
  | cons i is =>
    obtain ⟨hw', hs'⟩ := settled_turn hw ht.1
    obtain ⟨hn, hin, hc⟩ := turns_of_settled hw' hs' ht.2
    refine ⟨fun j => ?_, ?_, ?_⟩
    · have := List.nodup_iff_count_le_one.mp hn j
      rw [List.count_cons]
      split <;> omega
    · have hses : (h.turn i).sessions = h.sessions := by
        obtain ⟨c, o, hi, hto⟩ := ht.1
        exact (turn_spec hi hto).2
      have hsub : is ⊆ List.range h.sessions.length := fun j hj =>
        List.mem_range.mpr (hses ▸ (hin j hj).lt_length)
      have := (hn.subperm hsub).length_le
      rw [List.length_range] at this
      simpa using this
    · rw [changingPasses, hc]
      have := Bool.toNat_le (h.passChanges i)
      omega

/-! ## §4 The host's own steps -/

/-- A run over batches that begins with a turn of the session. -/
theorem handleBatches_succ (hi : h.sessions[i]? = some (.observing clipboard o))
    (ht : h.document.Told o) (n : Nat) :
    h.handleBatches clipboard o (n + 1) = (h.turn i).handleBatches clipboard o n := by
  rw [turn_of_told hi ht, handleBatches_of_told h clipboard ht]

/-- A run of a session's task is made of its turns, two at most, and leaves nothing queued for it:
the limit on batches never ends it. -/
theorem runObserver_eq_turns (hw : h.document.WellFormed)
    (hi : h.sessions[i]? = some (.observing clipboard o)) :
    ∃ n ≤ 2, h.MayTake (.replicate n i) ∧
      (h.runObserver i).document = (h.turns (.replicate n i)).document ∧
      (h.runObserver i).sessions = (h.turns (.replicate n i)).sessions ∧
      (h.runObserver i).document.queued o = [] := by
  have hrun : (h.runObserver i).document = (h.handleBatches clipboard o 3).document ∧
      (h.runObserver i).sessions = (h.handleBatches clipboard o 3).sessions := by
    rw [runObserver, hi]
    exact ⟨(wake_spec _).1, (wake_spec _).2.1⟩
  rw [hrun.1, hrun.2]
  by_cases ht : h.document.Told o
  swap
  · obtain ⟨hd, hs⟩ := handleBatches_of_not_told h clipboard ht 3
    exact ⟨0, by omega, trivial, hd, hs, by rw [hd]; exact not_not.mp ht⟩
  have htold : h.IsTold i := ⟨clipboard, o, hi, ht⟩
  obtain ⟨hw₁, hs₁⟩ := settled_turn hw htold
  have hi₁ : (h.turn i).sessions[i]? = some (.observing clipboard o) := by
    rw [(turn_spec hi ht).2, hi]
  rw [handleBatches_succ hi ht]
  by_cases ht₁ : (h.turn i).document.Told o
  swap
  · obtain ⟨hd, hs⟩ := handleBatches_of_not_told (h.turn i) clipboard ht₁ 2
    exact ⟨1, by omega, ⟨htold, trivial⟩, hd, hs, by rw [hd]; exact not_not.mp ht₁⟩
  -- the records of its own first pass, and perhaps of others
  have hq₂ : ((h.turn i).turn i).document.queued o = [] := by
    rw [(turn_of_settled hw₁ hs₁ hi₁ ht₁).1, queued_takeRecords, if_pos rfl]
  rw [handleBatches_succ hi₁ ht₁]
  obtain ⟨hd, hs⟩ := handleBatches_of_not_told ((h.turn i).turn i) clipboard (not_not.mpr hq₂) 1
  exact ⟨2, le_rfl, ⟨htold, ⟨clipboard, o, hi₁, ht₁⟩, trivial⟩, hd, hs, by rw [hd]; exact hq₂⟩

/-- Every step is a run of some session's observer task. -/
def OnlyObservers (h : Host) : List Action → Prop
  | [] => True
  | a :: as => (∃ k i, a = .run k ∧ h.queue[k]? = some (.observe i)) ∧
      (a.perform h).OnlyObservers as

/-- The document and the sessions are the same. -/
def SameView (h h' : Host) : Prop :=
  h'.document = h.document ∧ h'.sessions = h.sessions

theorem SameView.symm (hv : h.SameView h') : h'.SameView h :=
  ⟨hv.1.symm, hv.2.symm⟩

theorem SameView.trans {h'' : Host} (hv : h.SameView h') (hv' : h'.SameView h'') :
    h.SameView h'' :=
  ⟨hv'.1.trans hv.1, hv'.2.trans hv.2⟩

theorem SameView.turn (hv : h.SameView h') (i : Nat) : (h.turn i).SameView (h'.turn i) := by
  cases hi : h.sessions[i]? with
  | none => simpa [Host.turn, hi, hv.2] using hv
  | some s =>
    cases s with
    | waiting _ _ | closed => simpa [Host.turn, hi, hv.2] using hv
    | observing c o =>
      have hi' : h'.sessions[i]? = some (.observing c o) := by rw [hv.2, hi]
      by_cases ht : h.document.Told o
      · have ht' : h'.document.Told o := by rwa [Told, hv.1]
        obtain ⟨hd, hs⟩ := turn_spec hi ht
        obtain ⟨hd', hs'⟩ := turn_spec hi' ht'
        exact ⟨by rw [hd', hd, hv.1], by rw [hs', hs, hv.2]⟩
      · have ht' : ¬ h'.document.Told o := by rwa [Told, hv.1]
        obtain ⟨hd, hs⟩ := handleBatches_of_not_told h c ht 1
        obtain ⟨hd', hs'⟩ := handleBatches_of_not_told h' c ht' 1
        rw [turn_eq hi, turn_eq hi']
        exact ⟨by rw [hd', hd, hv.1], by rw [hs', hs, hv.2]⟩

theorem SameView.turns (hv : h.SameView h') (is : List Nat) :
    (h.turns is).SameView (h'.turns is) := by
  induction is generalizing h h' with
  | nil => exact hv
  | cons i is ih => exact ih (hv.turn i)

theorem SameView.mayTake (hv : h.SameView h') (ht : h'.MayTake is) : h.MayTake is := by
  induction is generalizing h h' with
  | nil => trivial
  | cons i is ih => exact ⟨ht.1.congr hv.1.symm hv.2.symm, ih (hv.turn i) ht.2⟩

theorem sameView_runObserver (hw : h.document.WellFormed) (i : Nat) :
    ∃ is, h.MayTake is ∧ (h.turns is).SameView (h.runObserver i) := by
  cases hi : h.sessions[i]? with
  | none => exact ⟨[], trivial, by rw [runObserver, hi]; exact ⟨rfl, rfl⟩⟩
  | some s =>
    cases s with
    | waiting _ _ | closed => exact ⟨[], trivial, by rw [runObserver, hi]; exact ⟨rfl, rfl⟩⟩
    | observing c o =>
      obtain ⟨n, -, hmay, hd, hs, -⟩ := runObserver_eq_turns hw hi
      exact ⟨_, hmay, hd, hs⟩

/-- If nothing but observer tasks is run, that is some order of turns. -/
theorem sameView_performAll {as : List Action} (hw : h.document.WellFormed)
    (ho : h.OnlyObservers as) :
    ∃ is, h.MayTake is ∧ (h.turns is).SameView (Action.performAll as h) := by
  induction as generalizing h with
  | nil => exact ⟨[], trivial, rfl, rfl⟩
  | cons a as ih =>
    obtain ⟨⟨k, i, rfl, hk⟩, ho⟩ := ho
    have hw' := wellFormed_perform hw (.run k)
    let h₁ : Host := { h with queue := h.queue.eraseIdx k }
    have hrun : (Action.run k).perform h = h₁.runObserver i := Action.perform_run hk
    have hsame : h.SameView h₁ := ⟨rfl, rfl⟩
    obtain ⟨is, hmay, hv⟩ := sameView_runObserver (h := h₁) hw i
    rw [hrun] at hw' ho
    obtain ⟨js, hmay', hv'⟩ := ih hw' ho
    have hthere : (h.turns is).SameView (h₁.runObserver i) := (hsame.turns is).trans hv
    refine ⟨is ++ js, mayTake_append.mpr ⟨hsame.mayTake hmay, hthere.mayTake hmay'⟩, ?_⟩
    rw [turns_append, Action.performAll, List.foldl_cons, hrun]
    exact (hthere.turns js).trans hv'

/-- **Sessions come to rest.** From any host that actions lead to, let sessions take turns in any
order, each when something is queued for it. No session has more than two, one pass at most changes
the document, and the turns can be gone on with for as long as something is queued for a session,
which is until all queues are empty. A run of a session's task is two turns at most, after which
nothing is queued for it, so this covers every order of the host's own work. -/
theorem sessions_come_to_rest (as : List Action) :
    let h := Action.performAll as (start new)
    (∀ is, h.MayTake is →
      (∀ i, is.count i ≤ 2) ∧ is.length ≤ h.sessions.length + 1 ∧ h.changingPasses is ≤ 1 ∧
      (∃ js, h.MayTake (is ++ js) ∧ (h.turns (is ++ js)).AtRest) ∧
      ((∀ i, ¬ h.MayTake (is ++ [i])) ↔ (h.turns is).AtRest)) ∧
    (∀ i clipboard o, h.sessions[i]? = some (.observing clipboard o) →
      ∃ n ≤ 2, h.MayTake (.replicate n i) ∧
        (h.runObserver i).document = (h.turns (.replicate n i)).document ∧
        (h.runObserver i).document.queued o = []) ∧
    (∀ bs, h.OnlyObservers bs → ∃ is, h.MayTake is ∧
      (Action.performAll bs h).document = (h.turns is).document ∧
      (Action.performAll bs h).sessions = (h.turns is).sessions) := by
  intro h
  have hw : h.document.WellFormed := wellFormed_performAll wellFormed_new as
  refine ⟨fun is hmay => ?_, fun i clipboard o hi => ?_, fun bs hbs => ?_⟩
  · obtain ⟨hcount, hlength, hchange⟩ := turns_bounded hw hmay
    obtain ⟨js, hjs, hrest⟩ := exists_rest (wellFormed_turns hw hmay)
    refine ⟨hcount, hlength, hchange, ⟨js, mayTake_append.mpr ⟨hmay, hjs⟩, ?_⟩, ?_⟩
    · rwa [turns_append]
    · simp only [AtRest, mayTake_append, MayTake, and_true, hmay, true_and]
  · obtain ⟨n, hn, hmay, hd, -, hq⟩ := runObserver_eq_turns hw hi
    exact ⟨n, hn, hmay, hd, hq⟩
  · obtain ⟨is, hmay, hd, hs⟩ := sameView_performAll hw hbs
    exact ⟨is, hmay, hd, hs⟩

/-- Two sessions observe a page, and a block is put into it. -/
def twoSessions : List Action :=
  [.markReady, .openSession "a", .openSession "b", .run 0, .run 0,
    .operate (.createElement "pre"), .operate (.createElement "code"),
    .operate (.appendChild ⟨3, 0⟩ ⟨4, 0⟩), .operate (.appendChild new.body ⟨3, 0⟩)]

/-- The second session has the first turn and changes the page, so it has another one. -/
theorem sessions_come_to_rest_twoSessions :
    let h := Action.performAll twoSessions (start new)
    h.MayTake [1, 0, 1] ∧ h.changingPasses [1, 0, 1] = 1 ∧ (h.turns [1, 0, 1]).AtRest := by
  intro h
  have hmay : h.MayTake [1, 0, 1] := by
    refine ⟨⟨"b", 1, ?_, ?_⟩, ⟨"a", 0, ?_, ?_⟩, ⟨"b", 1, ?_, ?_⟩, trivial⟩
    all_goals first
      | unfold Told; decide +kernel
      | decide +kernel
  have hlength : h.sessions.length = 2 := by decide +kernel
  obtain ⟨-, -, -, -, hrest⟩ := (sessions_come_to_rest twoSessions).1 _ hmay
  refine ⟨hmay, by decide +kernel, hrest.mp fun i hi => ?_⟩
  -- a fourth turn would be one too many
  have := ((sessions_come_to_rest twoSessions).1 _ hi).2.1
  rw [hlength] at this
  simp at this

end Host

end CopyControl
