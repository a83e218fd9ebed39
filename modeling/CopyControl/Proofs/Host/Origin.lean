import CopyControl.Proofs.Enhance.Result
import CopyControl.Proofs.Host.Copying

/-!
Where the text of a click comes from.

A click is made in one action and reads its block in another, and with a slow clipboard it writes
in a third; anything can happen in between. Work that copies is traced back: that of a click to the
action that made the click, and that of a write to the action that has read the text
(`traced_performFirst`). So every text that reaches a clipboard is what the block said in one state
between the click and the write.

Nobody looks whether the block is still there when it is read. A block that has gone says nothing,
and nothing is then what is written, with success: what was in the clipboard before is lost, and the
control shows that it was copied (`fate_of_attempt?`).

* §1 the work that an action asks for
* §2 tracing work back
* §3 whole runs
-/

namespace CopyControl

open Document

/-! ## §1 Asking for work -/

namespace Action

/-- The work that a click asks for. -/
def asked : Action → Host → List Work
  | click x, h => (h.document.clickListeners x).map (Host.workOf h.clicks)
  | handle block control clipboard, h => [.click h.clicks block control clipboard]
  | _, _ => []

/-- The work that an action runs was waiting or is asked for by the action itself. -/
theorem mem_works_or_asked {a : Action} {h : Host} {w : Work} (hw : a.work? h = some w) :
    w ∈ h.works ∨ w ∈ a.asked h := by
  cases a with
  | handle block control clipboard =>
    obtain rfl := Option.some.inj hw
    exact .inr (List.mem_singleton.mpr rfl)
  | run k => exact .inl (List.mem_append_left _ (List.mem_of_getElem? hw))
  | operate _ | reload _ | enhance _ | flush _ | click _ | advance _ | openSession _
  | closeSession _ | abandonSession _ | markReady | setClipboard _ _ | takeNotes =>
    simp [work?] at hw

/-- Of what copies, an action takes the piece that it runs, and leaves what comes of it and what it
asks for. -/
theorem copying_perform_asked (a : Action) (h : Host) (n : Nat) :
    (a.perform h).copying n + copiesFor n (a.work? h).toList =
      h.copying n + copiesFor n (a.next? h).toList + copiesFor n (a.asked h) := by
  cases a with
  | click x =>
    rw [add_right_comm]
    exact congrArg (· + 0) (Host.copying_dispatchClick h x n)
  | handle block control clipboard =>
    exact congrArg (· + _) (Host.copying_run h (.click h.clicks block control clipboard) n)
  | operate _ | reload _ | enhance _ | flush _ | run _ | advance _ | openSession _
  | closeSession _ | abandonSession _ | markReady | setClipboard _ _ | takeNotes =>
    exact (Host.copying_perform h _ (by simp [number?])).trans (add_zero _).symm

/-- Work that copies was waiting before the action, or the action has left it of the piece that it
ran, or has asked for it. -/
theorem mem_works_perform {a : Action} {h : Host} {w : Work} {n : Nat}
    (hw : w ∈ (a.perform h).works) (hc : w.copies? = some n) :
    w ∈ h.works ∨ a.next? h = some w ∨ w ∈ a.asked h := by
  have hmem : w ∈ (a.perform h).copying n + copiesFor n (a.work? h).toList :=
    Multiset.mem_add.mpr (.inl (Host.mem_copying hw hc))
  rw [copying_perform_asked, Multiset.mem_add, Multiset.mem_add] at hmem
  rcases hmem with (hold | hnext) | hasked
  · exact .inl (List.mem_of_mem_filter hold)
  · exact .inr (.inl (Option.mem_toList.mp (List.mem_of_mem_filter hnext)))
  · exact .inr (.inr (List.mem_of_mem_filter hasked))

/-! ## §2 Tracing work back -/

/-- The host after the first `n` actions of a run. -/
def performFirst (n : Nat) (as : List Action) (h : Host) : Host :=
  performAll (as.take n) h

theorem performFirst_succ {n : Nat} {as : List Action} {a : Action} (ha : as[n]? = some a)
    (h : Host) : performFirst (n + 1) as h = a.perform (performFirst n as h) := by
  rw [performFirst, List.take_add_one, ha, Option.toList_some, performAll_append]
  rfl

theorem performFirst_of_none {n : Nat} {as : List Action} (ha : as[n]? = none) (h : Host) :
    performFirst (n + 1) as h = performFirst n as h := by
  rw [performFirst, List.take_add_one, ha, Option.toList_none, List.append_nil]
  rfl

/-- The action at a place of the run asks for the work. -/
def AskedAt (h : Host) (as : List Action) (p : Nat) (w : Work) : Prop :=
  ∃ a, as[p]? = some a ∧ w ∈ a.asked (performFirst p as h)

/-- The action at a place of the run runs the work. -/
def RunAt (h : Host) (as : List Action) (q : Nat) (w : Work) : Prop :=
  ∃ a, as[q]? = some a ∧ a.work? (performFirst q as h) = some w

end Action

open CopyControl.Action

/-- A text was read at the place `q` of a run, for a click that was made at the place `p`. -/
structure ReadAt (h : Host) (as : List Action) (number : Nat) (block control : NodeId)
    (clipboard text : String) (p q : Nat) : Prop where
  order : p ≤ q
  asked : AskedAt h as p (.click number block control clipboard)
  run : RunAt h as q (.click number block control clipboard)
  text : text = (performFirst q as h).document.innerText block

/-- Work that copies has come from a click among the first `n` actions of the run, and a text that
is still to be written has been read in one of them. -/
def Work.Traced (h : Host) (as : List Action) (n : Nat) : Work → Prop
  | .click number block control clipboard =>
    ∃ p, p < n ∧ AskedAt h as p (.click number block control clipboard)
  | .write number block control clipboard text =>
    ∃ p q, q < n ∧ ReadAt h as number block control clipboard text p q
  | _ => True

theorem Work.Traced.succ {h : Host} {as : List Action} {n : Nat} {w : Work}
    (hw : w.Traced h as n) : w.Traced h as (n + 1) := by
  cases w with
  | click number block control clipboard =>
    obtain ⟨p, hp, hasked⟩ := hw
    exact ⟨p, Nat.lt_succ_of_lt hp, hasked⟩
  | write number block control clipboard text =>
    obtain ⟨p, q, hq, hread⟩ := hw
    exact ⟨p, q, Nat.lt_succ_of_lt hq, hread⟩
  | note _ _ | armRevert _ | revert _ | attach _ | observe _ => trivial

/-- Work that reads a block and is run at a place of the run was asked for there or before. -/
theorem askedAt_of_work {h : Host} {as : List Action} {q : Nat} {a : Action} {number : Nat}
    {block control : NodeId} {clipboard : String}
    (htraced : ∀ w ∈ (performFirst q as h).works, w.Traced h as q) (ha : as[q]? = some a)
    (hw : a.work? (performFirst q as h) = some (.click number block control clipboard)) :
    ∃ p, p ≤ q ∧ AskedAt h as p (.click number block control clipboard) := by
  rcases mem_works_or_asked hw with hold | hasked
  · obtain ⟨p, hp, hasked⟩ := htraced _ hold
    exact ⟨p, hp.le, hasked⟩
  · exact ⟨q, le_rfl, a, ha, hasked⟩

/-- What an action asks for is there after it. -/
theorem traced_of_asked {h : Host} {as : List Action} {n : Nat} {a : Action} {w : Work}
    (ha : as[n]? = some a) (hw : w ∈ a.asked (performFirst n as h)) : w.Traced h as (n + 1) := by
  cases w with
  | click number block control clipboard => exact ⟨n, Nat.lt_succ_self n, a, ha, hw⟩
  | write number block control clipboard text =>
    cases a with
    | click x =>
      obtain ⟨l, -, hl⟩ := List.mem_map.mp hw
      cases l <;> simp [Host.workOf] at hl
    | _ => simp [asked] at hw
  | note _ _ | armRevert _ | revert _ | attach _ | observe _ => trivial

theorem Work.traced_of_copies?_eq_none {h : Host} {as : List Action} {n : Nat} {w : Work}
    (hc : w.copies? = none) : w.Traced h as n := by
  cases w with
  | click _ _ _ _ | write _ _ _ _ _ => simp [Work.copies?] at hc
  | note _ _ | armRevert _ | revert _ | attach _ | observe _ => trivial

/-- All work that copies can be traced back, at every place of a run that begins without any. -/
theorem traced_performFirst {h : Host} (hh : h.works = []) (as : List Action) (n : Nat) :
    ∀ w ∈ (performFirst n as h).works, w.Traced h as n := by
  induction n with
  | zero => simp [performFirst, performAll, hh]
  | succ n ih =>
    intro w hw
    cases ha : as[n]? with
    | none =>
      rw [performFirst_of_none ha] at hw
      exact (ih w hw).succ
    | some a =>
      rw [performFirst_succ ha] at hw
      cases hc : w.copies? with
      | none => exact Work.traced_of_copies?_eq_none hc
      | some number =>
        rcases mem_works_perform hw hc with hold | hnext | hasked
        · exact (ih w hold).succ
        · -- the text that is still to be written has been read right now
          obtain ⟨v, hv, hvw⟩ := Option.bind_eq_some_iff.mp hnext
          cases v with
          | click number block control clipboard =>
            rw [Work.next?] at hvw
            split at hvw
            · simp at hvw
            · obtain rfl := Option.some.inj hvw
              obtain ⟨p, hp, hasked⟩ := askedAt_of_work ih ha hv
              exact ⟨p, n, Nat.lt_succ_self n, hp, hasked, ⟨a, ha, hv⟩, rfl⟩
          | write _ _ _ _ _ | note _ _ | armRevert _ | revert _ | attach _ | observe _ =>
            simp [Work.next?] at hvw
        · exact traced_of_asked ha hasked

/-- A text that an action attempts to write was read in a state between the click and the
attempt. -/
theorem readAt_of_attempt? {h : Host} (hh : h.works = []) {as : List Action} {m : Nat} {a : Action}
    (ha : as[m]? = some a) {t : Attempt} (ht : a.attempt? (performFirst m as h) = some t) :
    ∃ p q, q ≤ m ∧ ReadAt h as t.number t.block t.control t.clipboard t.text p q := by
  have htraced := traced_performFirst hh as m
  obtain ⟨w, hw, hwt⟩ := Option.bind_eq_some_iff.mp ht
  cases w with
  | click number block control clipboard =>
    rw [Work.attempt?] at hwt
    split at hwt
    · obtain rfl := Option.some.inj hwt
      obtain ⟨p, hp, hasked⟩ := askedAt_of_work htraced ha hw
      exact ⟨p, m, le_rfl, hp, hasked, ⟨a, ha, hw⟩, rfl⟩
    · simp at hwt
  | write number block control clipboard text =>
    obtain rfl := Option.some.inj hwt
    have hwork : Work.Traced h as (m + 1) (.write number block control clipboard text) := by
      rcases mem_works_or_asked hw with hold | hasked
      · exact (htraced _ hold).succ
      · exact traced_of_asked ha hasked
    obtain ⟨p, q, hq, hread⟩ := hwork
    exact ⟨p, q, Nat.le_of_lt_succ hq, hread⟩
  | note _ _ | armRevert _ | revert _ | attach _ | observe _ => simp [Work.attempt?] at hwt

/-! ## §3 Whole runs -/

/-- A node that is not there says nothing. -/
theorem Document.innerText_of_dead {d : Document} {x : NodeId} (hx : d.contains x = false) :
    d.innerText x = "" := by
  rw [innerText, tree?_of_dead hx]
  rfl

/-- What comes of a text that was read at the place `q` of a run, for a click made at the place
`p`, when the action at the place `m` attempts to write it. -/
structure Attempt.Fate (t : Attempt) (h : Host) (as : List Action) (p q m : Nat) : Prop where
  read : ReadAt h as t.number t.block t.control t.clipboard t.text p q
  order : q ≤ m
  /-- The text is one that the block had, while it was there, between the click and the attempt,
  exactly if the block was there when it was read, or else had no text in one of these states. -/
  faithful : (∃ n, p ≤ n ∧ n ≤ m ∧ (performFirst n as h).document.contains t.block ∧
      t.text = (performFirst n as h).document.innerText t.block) ↔
    (performFirst q as h).document.contains t.block ∨
      ∃ n, p ≤ n ∧ n ≤ m ∧ (performFirst n as h).document.contains t.block ∧
        (performFirst n as h).document.innerText t.block = ""
  /-- If the block was not there, nothing is written, in the place of what the clipboard held, -/
  vanished : (performFirst q as h).document.contains t.block = false → t.text = "" ∧
    ((performFirst (m + 1) as h).clipboard t.clipboard).memory.contents =
      if t.succeeded then some "" else
        ((performFirst m as h).clipboard t.clipboard).memory.contents
  /-- and the click comes out like any other. -/
  outcome : t.outcome = .copied ↔ t.succeeded

/-- The contents of a clipboard after an attempt to write to it. -/
theorem contents_of_attempt? {h : Host} {a : Action} {t : Attempt} (ht : a.attempt? h = some t) :
    ((a.perform h).clipboard t.clipboard).memory.contents =
      if t.succeeded then some t.text else (h.clipboard t.clipboard).memory.contents := by
  have hkeep : a.keepsMemory h := by
    cases a with
    | setClipboard name l => simp [Action.attempt?, Action.work?] at ht
    | _ => rfl
  rw [(Host.memory_perform hkeep t.clipboard).1, ht]
  by_cases hs : t.succeeded
  · simp [Attempt.lastWritten, hs]
  · simp [Attempt.lastWritten, hs]

/-- In every run of clicks, edits, reloads and whatever else, each attempt to write writes the text
that its block had in one state between the click and the attempt; what becomes of a click on a
control whose block has gone depends on the clipboard alone. -/
theorem fate_of_attempt? (d : Document) (as : List Action) (m : Nat) (a : Action) (t : Attempt)
    (ha : as[m]? = some a) (ht : a.attempt? (performFirst m as (.start d)) = some t) :
    ∃ p q, t.Fate (.start d) as p q m := by
  obtain ⟨p, q, hq, hread⟩ := readAt_of_attempt? (h := .start d) rfl ha ht
  refine ⟨p, q, hread, hq, ⟨?_, ?_⟩, fun hdead => ?_, ?_⟩
  · rintro ⟨n, hp, hn, hlive, htext⟩
    cases hc : (performFirst q as (.start d)).document.contains t.block with
    | true => exact .inl rfl
    | false =>
      rw [hread.text, innerText_of_dead hc] at htext
      exact .inr ⟨n, hp, hn, hlive, htext.symm⟩
  · rintro (hlive | ⟨n, hp, hn, hlive, hempty⟩)
    · exact ⟨q, hread.order, hq, hlive, hread.text⟩
    · cases hc : (performFirst q as (.start d)).document.contains t.block with
      | true => exact ⟨q, hread.order, hq, hc, hread.text⟩
      | false => exact ⟨n, hp, hn, hlive, by rw [hread.text, innerText_of_dead hc, hempty]⟩
  · have htext : t.text = "" := hread.text.trans (innerText_of_dead hdead)
    refine ⟨htext, ?_⟩
    rw [performFirst_succ ha, contents_of_attempt? ht, htext]
  · exact Attempt.outcome_eq_copied_iff (Action.result_of_attempt? ht).2

/-- A page with one block is enhanced and the control of the block clicked. The block is freed
before the work of the click is run. -/
def vanishing : List Action :=
  oneBlock.map .operate ++ [.operate (.setText ⟨4, 0⟩ "first"), .enhance "", .click ⟨6, 0⟩,
    .operate (.release ⟨4, 0⟩), .run 0]

theorem fate_of_attempt?_vanishing :
    ∃ a t, vanishing[8]? = some a ∧ a.attempt? (performFirst 8 vanishing (.start new)) = some t ∧
      ∃ p q, t.Fate (.start new) vanishing p q 8 := by
  obtain ⟨t, ht⟩ : ∃ t, (Action.run 0).attempt? (performFirst 8 vanishing (.start new)) = some t :=
    Option.isSome_iff_exists.mp (by decide +kernel)
  exact ⟨.run 0, t, rfl, ht, fate_of_attempt? new vanishing 8 (.run 0) t rfl ht⟩

/-- The text is empty, which the block never was while it was there after the click. The click
succeeds, and the clipboard holds the empty text. -/
theorem emptyText_vanishing :
    AskedAt (.start new) vanishing 6 (.click 0 ⟨4, 0⟩ ⟨6, 0⟩ "") ∧
      (∀ n ≤ 8, 6 ≤ n → (performFirst n vanishing (.start new)).document.contains ⟨4, 0⟩ →
        (performFirst n vanishing (.start new)).document.innerText ⟨4, 0⟩ = "first") ∧
      ((Action.run 0).attempt? (performFirst 8 vanishing (.start new))).map
        (fun t => (t.number, t.block, t.text, t.outcome, t.succeeded)) =
          some (0, ⟨4, 0⟩, "", .copied, true) ∧
      ((performFirst 8 vanishing (.start new)).clipboard "").memory.contents = none ∧
      ((performFirst 9 vanishing (.start new)).clipboard "").memory.contents = some "" := by
  refine ⟨⟨.click ⟨6, 0⟩, rfl, by decide +kernel⟩, ?_, by decide +kernel, by decide +kernel,
    by decide +kernel⟩
  decide +kernel

end CopyControl
