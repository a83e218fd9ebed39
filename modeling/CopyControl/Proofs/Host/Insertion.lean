import CopyControl.Proofs.Document.Freed
import CopyControl.Proofs.Host.Refusal

/-!
Insertions: when they are refused, and where the node stands afterwards.

A node that has a parent is first taken out of it, also if that is the parent it is going to. The
place in front of a sibling is looked for after that, so it is told here by how the list without the
node splits, and not by a position in the old one. The one insertion that would have to look for the
node itself, in front of itself, is caught before and does nothing.

* §1 causes of a refusal
* §2 the place among the siblings
* §3 who is told
* §4 insertions
-/

namespace CopyControl.Document

open Edit Relation

variable {d d' : Document} {p c s x : NodeId} {r : Option NodeId} {e : DocumentError}

/-! ## §1 Causes -/

/-- Why an insertion of `c` below `p`, in front of `r`, is refused. Each cause counts only where
none of those before it does. -/
inductive InsertionRefused (d : Document) (p c : NodeId) (r : Option NodeId) :
    DocumentError → Prop
  | deadParent (hp : d.contains p = false) : InsertionRefused d p c r (.unknownNode p)
  | textParent (hp : d.contains p) (hel : ¬ d.IsElement p) :
      InsertionRefused d p c r (.notAnElement p)
  | deadChild (hp : d.IsElement p) (hc : d.contains c = false) :
      InsertionRefused d p c r (.unknownNode c)
  | above (hp : d.IsElement p) (hc : d.contains c) (hcp : d.AtOrAbove c p) :
      InsertionRefused d p c r (.hierarchyCycle p c)
  | reference {s : NodeId} (hp : d.IsElement p) (hc : d.contains c) (hcp : ¬ d.AtOrAbove c p)
      (hr : r = some s) (hs : s ∉ d.children p) : InsertionRefused d p c r (.notAChild p s)

theorem missing?_eq_some_iff :
    d.missing? x = some e ↔ d.contains x = false ∧ e = .unknownNode x := by
  rw [missing?, Option.ite_none_left_eq_some, Option.some.injEq, Bool.not_eq_true, @eq_comm _ e]

theorem noElement?_eq_some_iff :
    d.noElement? x = some e ↔
      d.contains x = false ∧ e = .unknownNode x ∨
        d.contains x ∧ ¬ d.IsElement x ∧ e = .notAnElement x := by
  rw [noElement?, Option.or_eq_some_iff, missing?_eq_some_iff, missing?_eq_none_iff,
    Option.ite_none_left_eq_some, Option.some.injEq, @eq_comm _ (DocumentError.notAnElement x),
    IsElement]

section
variable (hw : d.WellFormed)
include hw

theorem unfit?_eq_some_iff :
    d.unfit? p c = some e ↔
      d.contains c = false ∧ e = .unknownNode c ∨
        d.contains c ∧ d.AtOrAbove c p ∧ e = .hierarchyCycle p c := by
  rw [unfit?, Option.or_eq_some_iff, missing?_eq_some_iff, missing?_eq_none_iff,
    Option.ite_none_right_eq_some, hw.isInclusiveAncestor_iff, Option.some.injEq,
    @eq_comm _ (DocumentError.hierarchyCycle p c)]

theorem unfit?_eq_none_iff : d.unfit? p c = none ↔ d.contains c ∧ ¬ d.AtOrAbove c p := by
  rw [unfit?, Option.or_eq_none_iff, missing?_eq_none_iff, ← hw.isInclusiveAncestor_iff]
  refine and_congr_right fun _ => ?_
  split <;> simp_all

theorem noChild?_eq_some_iff :
    d.noChild? p s = some e ↔ s ∉ d.children p ∧ e = .notAChild p s := by
  rw [noChild?, Option.ite_none_left_eq_some, hw.parent_iff, Option.some.injEq, @eq_comm _ e]

theorem failure?_insertBefore_iff :
    (insertBefore p c r).failure? d = some e ↔ d.InsertionRefused p c r e := by
  rw [(refuses_insertBefore p c r).failure?, Option.or_eq_some_iff, noElement?_eq_some_iff,
    noElement?_eq_none_iff, Option.or_eq_some_iff, unfit?_eq_some_iff hw, unfit?_eq_none_iff hw,
    Option.bind_eq_some_iff]
  simp only [noChild?_eq_some_iff hw]
  constructor
  · rintro ((⟨hp, rfl⟩ | ⟨hp, hel, rfl⟩) |
      ⟨hp, (⟨hc, rfl⟩ | ⟨hc, hcp, rfl⟩) | ⟨⟨hc, hcp⟩, s, hr, hs, rfl⟩⟩)
    · exact .deadParent hp
    · exact .textParent hp hel
    · exact .deadChild hp hc
    · exact .above hp hc hcp
    · exact .reference hp hc hcp hr hs
  · rintro (hp | ⟨hp, hel⟩ | ⟨hp, hc⟩ | ⟨hp, hc, hcp⟩ | ⟨hp, hc, hcp, hr, hs⟩)
    · exact .inl (.inl ⟨hp, rfl⟩)
    · exact .inl (.inr ⟨hp, hel, rfl⟩)
    · exact .inr ⟨hp, .inl (.inl ⟨hc, rfl⟩)⟩
    · exact .inr ⟨hp, .inl (.inr ⟨hc, hcp, rfl⟩)⟩
    · exact .inr ⟨hp, .inr ⟨⟨hc, hcp⟩, _, hr, hs, rfl⟩⟩

/-- What no check stops is insertable. -/
theorem insertable_of_not_refused (h : ∀ e, ¬ d.InsertionRefused p c r e) :
    d.Insertable p c r := by
  have hp : d.IsElement p := by
    by_contra hel
    cases hp : d.contains p with
    | false => exact h _ (.deadParent hp)
    | true => exact h _ (.textParent hp hel)
  have hc : d.contains c := by
    by_contra hc
    exact h _ (.deadChild hp (Bool.not_eq_true _ ▸ hc))
  have hcp : ¬ d.AtOrAbove c p := fun hcp => h _ (.above hp hc hcp)
  refine ⟨hp, (mayHold_iff hw).mpr ⟨hc, hcp⟩, fun s hr => ?_⟩
  by_contra hs
  exact h _ (.reference hp hc hcp hr fun hm => hs ((hw.parent_iff s p).mpr hm))

end

/-! ## §2 The place -/

/-- A node goes directly in front of one that is in the list. -/
theorem insertSibling_some (c : NodeId) {l : List NodeId} (hs : s ∈ l) :
    ∃ l₁ l₂, l = l₁ ++ s :: l₂ ∧ insertSibling c (some s) l = l₁ ++ c :: s :: l₂ := by
  induction l with
  | nil => simp at hs
  | cons a l ih =>
    by_cases ha : a = s
    · exact ⟨[], l, by simp [ha], by simp [insertSibling, ha]⟩
    · obtain ⟨l₁, l₂, hl, hins⟩ := ih (List.mem_of_ne_of_mem (Ne.symm ha) hs)
      exact ⟨a :: l₁, l₂, by rw [hl, List.cons_append],
        by rw [insertSibling, if_neg (by simpa using ha), hins, List.cons_append]⟩

/-! ## §3 Who is told -/

/-- The records of a move are told to those that watched their targets before it: nothing above the
old parent or above the new one changes. -/
theorem isFor_moveReports_iff (hw : d.WellFormed) (hp : d.IsElement p) (h : d.MayHold p c)
    {e : Emission} (he : e ∈ d.moveReports p c r) {target : NodeId} {subtree : Bool} :
    e.isFor target subtree ↔
      e.record.target = target ∨ subtree ∧ d.AtOrAbove target e.record.target := by
  obtain ⟨hc, hcp⟩ := (mayHold_iff hw).mp h
  have hwe : e.document.WellFormed := (Emits.move p c r hp h).wellFormed_of_mem hw he
  have hway : ∀ y, d.AtOrAbove y e.record.target → e.document.parent? y = d.parent? y := by
    intro y hy
    rcases List.mem_append.mp he with he | he
    · unfold unlinkReports at he
      split at he
      · rename_i q hq
        obtain rfl := List.mem_singleton.mp he
        rw [parent?_detach, if_neg]
        rintro rfl
        exact hw.not_atOrAbove_of_link hq hy
      · simp at he
    · obtain rfl := List.mem_singleton.mp he
      obtain ⟨hcon, -, hpar, -⟩ := lookups_congr (slots_cutLoose d c)
      have hyc : y ≠ c := by
        rintro rfl
        exact hcp hy
      rw [parent?_attach r (by rw [hcon, contains_unlink]; exact hc), hpar, parent?_unlink,
        if_neg hyc, if_neg hyc]
  rw [Emission.isFor_iff hwe, atOrAbove_iff_of_parent?_eq hway]

theorem record_moveReports (d : Document) (p c : NodeId) (r : Option NodeId) :
    (d.moveReports p c r).map (·.record) =
      (d.parent? c).toList.map (.ofRemoved · c) ++ [.ofAdded p c] := by
  rw [moveReports, unlinkReports]
  cases d.parent? c <;> rfl

theorem free_move (d : Document) (p c : NodeId) (r : Option NodeId) :
    (d.move p c r).free = d.free := by
  have hcut : (d.cutLoose c).free = d.free := by
    unfold cutLoose
    split
    · simp [detach]
    · rfl
  rw [move_eq, free_notify, attach, free_updateNode, free_updateNode, hcut]

/-! ## §4 Insertions -/

/-- What an insertion of `c` below `p`, in front of `r` or last, makes of a document. -/
structure Inserted (d : Document) (p c : NodeId) (r : Option NodeId) (d' : Document) : Prop where
  /-- The children of `p` are those it had without `c`, and `c` is last, -/
  last : r = none → d'.children p = (d.children p).filter (· ≠ c) ++ [c]
  /-- or directly in front of `r`. -/
  before : ∀ s, r = some s → ∃ l₁ l₂,
    (d.children p).filter (· ≠ c) = l₁ ++ s :: l₂ ∧ d'.children p = l₁ ++ c :: s :: l₂
  /-- Another node that was the parent of `c` loses `c`, and no other list changes. -/
  others : ∀ x ≠ p, d'.children x =
    if d.parent? c = some x then (d.children x).filter (· ≠ c) else d.children x
  parent : ∀ x, d'.parent? x = if x = c then some p else d.parent? x
  kind : d'.kind? = d.kind?
  listeners : d'.listeners = d.listeners
  slots : d'.generation? = d.generation? ∧ d'.contains = d.contains ∧ d'.free = d.free
  /-- A removal from the old parent, if there was one, and then an addition to `p` are put out, each
  to the observers that watched the target before the insertion. -/
  told : ∃ es, Reports d es d' ∧
    es.map (·.record) = (d.parent? c).toList.map (.ofRemoved · c) ++ [.ofAdded p c] ∧
    ∀ e ∈ es, ∀ target subtree, e.isFor target subtree ↔
      e.record.target = target ∨ subtree ∧ d.AtOrAbove target e.record.target

theorem inserted_move (hw : d.WellFormed) (h : d.Insertable p c r) (hrc : r ≠ some c) :
    d.Inserted p c r (d.move p c r) where
  last hr := by
    rw [children_move hw (contains_of_isElement h.element), if_pos rfl, hr, insertSibling_none]
  before s hr := by
    have hsc : s ≠ c := fun hsc => hrc (hsc ▸ hr)
    have hs : s ∈ (d.children p).filter (· ≠ c) := by
      simpa [hsc] using (hw.parent_iff s p).mp (h.reference s hr)
    rw [children_move hw (contains_of_isElement h.element), if_pos rfl, hr]
    exact insertSibling_some c hs
  others x hx := by
    rw [children_move hw (contains_of_isElement h.element), if_neg hx]
    split
    · rfl
    · rename_i hcx
      refine List.filter_eq_self.mpr fun y hy => decide_eq_true ?_
      rintro rfl
      exact hcx ((hw.parent_iff y x).mpr hy)
  parent := parent?_move r h.mayHold.1
  kind := kind?_move ..
  listeners := listeners_move ..
  slots := by
    refine ⟨generation?_move .., ?_, free_move ..⟩
    funext x
    rw [← kind?_isSome, kind?_move, kind?_isSome]
  told := by
    refine ⟨d.moveReports p c r, (Emits.move p c r h.element h.mayHold).reports,
      record_moveReports .., fun e he target subtree => ?_⟩
    exact isFor_moveReports_iff hw h.element h.mayHold he

/-- **Insertions.** In a document that can be reached, and for any handles, an insertion fails just
if one of the causes holds, with that. If none does, it goes through: in front of itself a node
stays where it is and nothing changes; otherwise it goes where `Inserted` says. -/
theorem inserted_insertBefore (hd : d.Reachable) (p c : NodeId) (r : Option NodeId) :
    (∀ e, (insertBefore p c r).failure? d = some e ↔ d.InsertionRefused p c r e) ∧
    ((∀ e, ¬ d.InsertionRefused p c r e) →
      ∃ d', (insertBefore p c r).apply d = (.ok (), d') ∧
        if r = some c then d' = d else d.Inserted p c r d') := by
  have hw := hd.wellFormed
  refine ⟨fun e => failure?_insertBefore_iff hw, fun hno => ?_⟩
  have h := insertable_of_not_refused hw hno
  refine ⟨_, insertBefore_ok h, ?_⟩
  split
  · rfl
  · exact inserted_move hw h ‹_›

/-- A `ul` with three `li` in the body, which is observed. -/
def listed : List Operation :=
  [.createElement "ul", .appendChild new.body ⟨3, 0⟩,
    .createElement "li", .appendChild ⟨3, 0⟩ ⟨4, 0⟩,
    .createElement "li", .appendChild ⟨3, 0⟩ ⟨5, 0⟩,
    .createElement "li", .appendChild ⟨3, 0⟩ ⟨6, 0⟩, .observe new.body true]

/-- The first `li` goes in front of the last, so that the place moves up when it is taken out. -/
theorem inserted_insertBefore_listed :
    let d := Operation.runAll listed new
    d.Reachable ∧ (∀ e, ¬ d.InsertionRefused ⟨3, 0⟩ ⟨4, 0⟩ (some ⟨6, 0⟩) e) ∧
      ∃ d', (insertBefore ⟨3, 0⟩ ⟨4, 0⟩ (some ⟨6, 0⟩)).apply d = (.ok (), d') ∧
        d.Inserted ⟨3, 0⟩ ⟨4, 0⟩ (some ⟨6, 0⟩) d' ∧
        d'.children ⟨3, 0⟩ = [⟨5, 0⟩, ⟨4, 0⟩, ⟨6, 0⟩] ∧
        d'.queued 0 = [.ofRemoved ⟨3, 0⟩ ⟨4, 0⟩, .ofAdded ⟨3, 0⟩ ⟨4, 0⟩] := by
  intro d
  have hd : d.Reachable := reachable_runAll listed
  have hno : ∀ e, ¬ d.InsertionRefused ⟨3, 0⟩ ⟨4, 0⟩ (some ⟨6, 0⟩) e := by
    intro e he
    have hnone : (insertBefore ⟨3, 0⟩ ⟨4, 0⟩ (some ⟨6, 0⟩)).failure? d = none := by decide +kernel
    have hsome := ((inserted_insertBefore hd ⟨3, 0⟩ ⟨4, 0⟩ (some ⟨6, 0⟩)).1 e).mpr he
    rw [hnone] at hsome
    simp at hsome
  obtain ⟨d', hok, hins⟩ := (inserted_insertBefore hd ⟨3, 0⟩ ⟨4, 0⟩ (some ⟨6, 0⟩)).2 hno
  rw [if_neg (by simp)] at hins
  obtain rfl : ((insertBefore ⟨3, 0⟩ ⟨4, 0⟩ (some ⟨6, 0⟩)).apply d).2 = d' := by rw [hok]
  refine ⟨hd, hno, _, hok, hins, ?_⟩
  decide +kernel

end CopyControl.Document
