import CopyControl.Proofs.Document.Blank
import CopyControl.Proofs.Document.Operations

/-!
When a handle comes back.

The generation of a slot counts modulo `2 ^ 32`. So a handle that has been spent is given out once
more: let nodes be made in its slot and released, round after round. Each round leaves the document
as it was, but for the generation (`run_round`). Rounds go on until the generation is the one of the
handle, and the next node gets it (`createNode_rounds`). Even the root's handle comes back, as that
of a node that was not there before, when the slot of the root has been emptied `2 ^ 32` times
(`rootReissued_spec`).

* §1 one round
* §2 round after round
* §3 the handle of the root
-/

namespace CopyControl.Document

open Edit Operation

/-! ## §1 One round -/

/-- The same document, but for a slot that has gone on by `n` generations. -/
def aged (d : Document) (i : Nat) (n : UInt32) : Document :=
  { d with slots := d.slots.modify i fun s => { s with generation := s.generation + n } }

theorem getElem?_slots_aged (d : Document) (i : Nat) (n : UInt32) (j : Nat) :
    (d.aged i n).slots[j]? = if i = j then
      (d.slots[j]?).map fun s => { s with generation := s.generation + n } else d.slots[j]? :=
  Array.getElem?_modify

theorem aged_aged (d : Document) (i : Nat) (m n : UInt32) :
    (d.aged i m).aged i n = d.aged i (m + n) := by
  refine eq_of_slots (fun j => ?_) rfl
  simp only [getElem?_slots_aged]
  split
  · cases d.slots[j]? <;> simp [UInt32.add_assoc]
  · rfl

theorem aged_zero (d : Document) (i : Nat) : d.aged i 0 = d := by
  refine eq_of_slots (fun j => ?_) rfl
  rw [getElem?_slots_aged]
  split
  · cases d.slots[j]? <;> simp
  · rfl

theorem generation?_aged (d : Document) (i : Nat) (n : UInt32) :
    (d.aged i n).generation? i = (d.generation? i).map (· + n) := by
  simp only [generation?, getElem?_slots_aged, if_pos]
  cases d.slots[i]? <;> rfl

section round
variable {d : Document} {i : Nat} {g : UInt32} {rest : List Nat}

/-- The next node is made in the slot that is the first to be used again. -/
theorem createNode_of_free (hfree : d.free = i :: rest) (hg : d.generation? i = some g)
    (k : NodeKind) :
    d.createNode k = (⟨i, g⟩, { d with
      slots := d.slots.modify i fun s => { s with node := some (.detached k) }
      free := rest }) := by
  rw [createNode, hfree]
  show (NodeId.mk i ((d.generation? i).getD 0), _) = _
  rw [hg]
  rfl

/-- Of a node with nothing above it and nothing below it, only its own slot is emptied. -/
theorem run_release_alone (hw : d.WellFormed) {x : NodeId} (hx : d.contains x) (hroot : x ≠ d.root)
    (hp : d.parent? x = none) (hc : d.children x = []) :
    (Operation.release x).run d = d.vacate x := by
  have hloose : d.cutLoose x = d := by rw [cutLoose, hp]
  show ((release x).apply d).2 = _
  rw [release_ok hx hroot, hloose, releaseSubtree, hw.descendants_eq hx, hc]
  rfl

/-- To make a node and release it at once makes the slot a generation older, and that is all. -/
theorem run_round (hw : d.WellFormed) (hfree : d.free = i :: rest)
    (hg : d.generation? i = some g) (hroot : d.root ≠ ⟨i, g⟩) (s : String) :
    (Operation.release ⟨i, g⟩).run ((Operation.createText s).run d) = d.aged i 1 := by
  have hmade := createNode_of_free hfree hg (.text s)
  obtain ⟨d', hd'⟩ : ∃ d', d' = (d.createNode (.text s)).2 := ⟨_, rfl⟩
  have hlive : d'.contains ⟨i, g⟩ := by
    rw [hd', contains_createNode hw.free, hmade]
    simp
  have hdead : d.contains ⟨i, g⟩ = false := by
    have := contains_createNode_fst hw.free (.text s)
    rwa [hmade] at this
  have hrelease : (Operation.release ⟨i, g⟩).run d' = d'.vacate ⟨i, g⟩ := by
    refine run_release_alone (hd' ▸ wellFormed_createNode hw (by simp)) hlive ?_ ?_ ?_
    · rw [hd', hmade]
      exact hroot.symm
    · rw [hd', parent?_createNode hw.free, parent?_eq_none_of_dead hdead]
    · rw [hd', children_createNode hw.free]
      simp [children, contains_eq_false_iff.mp hdead]
  have hlisteners : d.listeners.filter (·.1 ≠ ⟨i, g⟩) = d.listeners := by
    refine List.filter_eq_self.mpr fun l hl => ?_
    have hl := hw.listeners_live l hl
    rw [decide_eq_true_iff]
    rintro heq
    simp [heq, hdead] at hl
  show (Operation.release ⟨i, g⟩).run (d.createNode (.text s)).2 = _
  rw [← hd', hrelease, hd', hmade]
  refine eq_of_slots (fun j => ?_) ?_
  · obtain ⟨g', hslot⟩ := (hw.free.mem_iff i).mp (hfree ▸ List.mem_cons_self)
    simp only [vacate, getElem?_slots_aged, Array.getElem?_modify]
    split
    · subst j
      simp [hslot]
    · rfl
  · simp only [vacate, aged, hlisteners, hfree]

end round

/-! ## §2 Round after round -/

/-- Nodes that are made in a slot and released at once, `n` of them, from the generation `g` on. -/
def rounds (i : Nat) : Nat → UInt32 → List Operation
  | 0, _ => []
  | n + 1, g => .createText "" :: .release ⟨i, g⟩ :: rounds i n (g + 1)

section rounds
variable {d : Document} {rest : List Nat}

theorem rounds_spec (hw : d.WellFormed) {i : Nat} {g : UInt32} (hfree : d.free = i :: rest)
    (hg : d.generation? i = some g) {n : Nat} (hroot : ∀ k < n, d.root ≠ ⟨i, g + .ofNat k⟩) :
    runAll (rounds i n g) d = d.aged i (.ofNat n) ∧ timesEmptied i (rounds i n g) d = n := by
  induction n generalizing d g with
  | zero => exact ⟨(aged_zero d i).symm, rfl⟩
  | succ n ih =>
    have hround := run_round hw hfree hg (by simpa using hroot 0 n.succ_pos) ""
    have hw' : (d.aged i 1).WellFormed := hround ▸ wellFormed_run (wellFormed_run hw _) _
    have hg' : (d.aged i 1).generation? i = some (g + 1) := by
      rw [generation?_aged, hg]
      rfl
    have hmade : ((Operation.createText "").run d).generation? i = some g := by
      show (d.createNode (.text "")).2.generation? i = _
      have hi : i < d.slots.size := by
        by_contra hi
        simp [generation?, Array.getElem?_eq_none (Nat.not_lt.mp hi)] at hg
      rw [generation?_createNode d _ hi, hg]
    obtain ⟨hrun, htimes⟩ := ih hw' hfree hg' fun k hk => by
      have := hroot (k + 1) (by omega)
      rwa [UInt32.ofNat_add, UInt32.add_comm (.ofNat k), ← UInt32.add_assoc] at this
    constructor
    · rw [rounds, runAll_cons, runAll_cons, hround, hrun, aged_aged, UInt32.ofNat_add,
        UInt32.add_comm]
      rfl
    · rw [rounds, timesEmptied, timesEmptied, hround, htimes, hmade, hg', hg]
      simp [Nat.add_comm]

/-- Before the generation of the handle is reached, no round has the handle. -/
theorem ne_of_lt_rounds {r x : NodeId} {g : UInt32} (hr : r.index = x.index → r = x) {n : Nat}
    (hn : n < (x.generation - g).toNat) : r ≠ ⟨x.index, g + .ofNat n⟩ := by
  intro heq
  have hx : x = ⟨x.index, g + .ofNat n⟩ := (hr (by rw [heq])).symm.trans heq
  have hgen : x.generation - g = .ofNat n := by
    rw [congrArg NodeId.generation hx, UInt32.add_comm, UInt32.add_sub_cancel]
  rw [hgen, UInt32.toNat_ofNat'] at hn
  exact absurd (Nat.mod_le n _) (Nat.not_le.mpr hn)

/-- **A handle comes back.** Whatever handle has the slot that is the first to be used again, there
is a number of rounds after which the next node gets it. -/
theorem createNode_rounds (hw : d.WellFormed) {x : NodeId} {g : UInt32}
    (hfree : d.free = x.index :: rest) (hg : d.generation? x.index = some g)
    (hroot : d.root.index = x.index → d.root = x) (k : NodeKind) :
    ((runAll (rounds x.index (x.generation - g).toNat g) d).createNode k).1 = x := by
  obtain ⟨hrun, -⟩ := rounds_spec hw hfree hg fun n hn => ne_of_lt_rounds hroot hn
  have hgen : (d.aged x.index (.ofNat (x.generation - g).toNat)).generation? x.index =
      some x.generation := by
    rw [generation?_aged, hg, UInt32.ofNat_toNat, Option.map_some, UInt32.add_comm,
      UInt32.sub_add_cancel]
  rw [hrun]
  exact congrArg Prod.fst (createNode_of_free (d := d.aged x.index _) hfree hgen k)

end rounds

/-! ## §3 The handle of the root -/

/-- The root is released together with a new parent, and then its slot is the first to be used
again. -/
def rootReleased : List Operation :=
  [.createElement "div", .appendChild ⟨3, 0⟩ new.root, .release ⟨3, 0⟩, .createText "",
    .createText ""]

/-- A `pre` with a block in it, which stands alone. -/
def lonePre : List Operation :=
  [.createElement "pre", .createElement "code", .appendChild new.root ⟨3, 1⟩]

/-- The `pre` has the handle of the root. -/
def rootReissued : List Operation :=
  rootReleased ++ rounds 0 (UInt32.size - 1) 1 ++ lonePre

/-- After the rounds the slot has its first generation again. On the way the slot of the root has
been emptied `2 ^ 32` times. -/
theorem rootReissued_spec :
    runAll rootReissued new =
        runAll lonePre ((runAll rootReleased new).aged 0 (.ofNat (UInt32.size - 1))) ∧
      timesEmptied new.root.index rootReissued new = UInt32.size := by
  have hw := wellFormed_runAll wellFormed_new rootReleased
  have hfree : (runAll rootReleased new).free = [0, 3] := by decide +kernel
  have hgen : (runAll rootReleased new).generation? 0 = some 1 := by decide +kernel
  have hroot : (runAll rootReleased new).root = new.root := by decide +kernel
  obtain ⟨hrun, htimes⟩ := rounds_spec hw hfree hgen (n := UInt32.size - 1) fun n hn =>
    ne_of_lt_rounds (x := new.root) (fun _ => hroot) hn
  have hfirst : timesEmptied 0 rootReleased new = 1 := by decide +kernel
  have hlast : timesEmptied 0 lonePre
      ((runAll rootReleased new).aged 0 (.ofNat (UInt32.size - 1))) = 0 := by decide +kernel
  constructor
  · rw [rootReissued, runAll_append, runAll_append]
    exact congrArg _ hrun
  · show timesEmptied 0 rootReissued new = _
    rw [rootReissued, timesEmptied_runAll_append, timesEmptied_runAll_append, runAll_append, hrun,
      htimes, hfirst, hlast]
    rfl

end CopyControl.Document
