import CopyControl.Proofs.Enhance.Backlog

/-!
A pass after a pass.

After a pass every block is below a `pre` that has the mark, or below one that hangs on nothing and
so cannot be wrapped (`settled_enhance`). The next pass finds the same blocks, leaves each of them
alone, and leaves the document exactly as it is (`enhance_of_settled`). A mark stays on a `pre` for
as long as the `pre` is there, whatever is done to the document (`Works.hasClass`).

* §1 settled documents
* §2 the next pass
* §3 marks last
-/

namespace CopyControl.Document

open Relation Enhance

variable {d d' : Document} {clipboard : String}

/-! ## §1 Settled documents -/

/-- A pass has nothing to do: the `pre` of each block has the mark, or hangs on nothing. -/
def Settled (d : Document) : Prop :=
  ∀ c pre, d.isBlock c → d.parent? c = some pre →
    d.hasClass pre enhancedClass ∨ d.parent? pre = none

theorem isBlock_iff (hw : d.WellFormed) {c : NodeId} :
    d.isBlock c ↔ d.contains c ∧ d.AtOrAbove d.root c ∧ ∃ pre, d.Block c pre := by
  constructor
  · intro hc
    obtain ⟨pre, hb⟩ := block_of_isBlock hc
    simp only [isBlock, Bool.and_eq_true] at hc
    obtain ⟨hlive, ha⟩ := hw.isConnected_iff.mp hc.1.1
    exact ⟨hlive, ha, pre, hb⟩
  · rintro ⟨hlive, ha, pre, hb⟩
    simp [isBlock, hw.isConnected_iff, hlive, ha, hb.tag_code, hb.link, hb.tag_pre]

theorem root_enhance (hw : d.WellFormed) (clipboard : String) :
    (d.enhance clipboard).document.root = d.root :=
  congrArg Prod.fst (changes_enhance hw clipboard).landmarks_eq

/-- A pass leaves the blocks there are, and makes none. -/
theorem isBlock_enhance (hw : d.WellFormed) (clipboard : String) (c : NodeId) :
    (d.enhance clipboard).document.isBlock c ↔ d.isBlock c := by
  obtain ⟨os, h⟩ := enhance_progress hw clipboard
  have hw' := h.enhanced.wellFormed
  rw [isBlock_iff hw, isBlock_iff hw', root_enhance hw]
  constructor
  · rintro ⟨hlive', ha', pre, hb'⟩
    have hb := h.enhanced.block (fun o ho => (h.bare o ho).1) hb'
    have hlive := contains_of_tag? hb.tag_code
    have hroot : d.contains d.root := by
      rcases h.enhanced.contains_iff.mp (hw'.contains_of_atOrAbove ha' hlive') with hm | hroot
      · obtain ⟨o, ho, -⟩ := List.mem_flatMap.mp hm
        exact h.contains_root hw ho
      · exact hroot
    exact ⟨hlive, h.enhanced.atOrAbove hw hroot hlive ha', pre, hb⟩
  · rintro ⟨hlive, ha, pre, hb⟩
    have htag : ∀ y, d.contains y → (d.enhance clipboard).document.tag? y = d.tag? y := fun y hy =>
      h.enhanced.tag? (h.not_made hy)
    refine ⟨h.enhanced.contains_iff.mpr (.inr hlive), h.enhanced.atOrAbove_of ha, pre, ?_⟩
    exact ⟨(htag c hlive).trans hb.tag_code, h.link hb,
      (htag pre (contains_of_tag? hb.tag_pre)).trans hb.tag_pre⟩

theorem length_codeBlocks_enhance (hw : d.WellFormed) (clipboard : String) :
    (d.enhance clipboard).document.codeBlocks.length = d.codeBlocks.length := by
  have hw' := (changes_enhance hw clipboard).wellFormed hw
  refine List.Perm.length_eq ?_
  rw [List.perm_ext_iff_of_nodup (nodup_codeBlocks hw') (nodup_codeBlocks hw)]
  intro c
  rw [mem_codeBlocks_iff hw', mem_codeBlocks_iff hw, isBlock_enhance hw]

/-- A pass settles a document. -/
theorem settled_enhance (hw : d.WellFormed) (clipboard : String) :
    (d.enhance clipboard).document.Settled := by
  intro c pre hc hl
  have hblock := (isBlock_enhance hw clipboard c).mp hc
  obtain ⟨os, h⟩ := enhance_progress hw clipboard
  obtain ⟨q, hb⟩ := block_of_isBlock hblock
  obtain rfl : pre = q := Option.some.inj (hl.symm.trans (h.link hb))
  by_cases hp : pre ∈ os.map Outfit.pre
  · obtain ⟨o, ho, rfl⟩ := List.mem_map.mp hp
    exact .inl (h.enhanced.hasClass_pre ho).1
  have hlive := contains_of_tag? hb.tag_pre
  rw [h.hasClass_rest hlive hp, h.enhanced.parent?_rest pre (h.not_made hlive) hp]
  rcases h.covered c ((mem_codeBlocks_iff hw).mpr hblock) pre hb.link with hm | hm | hm
  · exact .inl hm
  · exact absurd hm hp
  · exact .inr hm

theorem SameArena.isBlock_iff (h : d.SameArena d') (hw : d.WellFormed) (c : NodeId) :
    d'.isBlock c ↔ d.isBlock c := by
  obtain ⟨hcontains, hkind, hparent, -⟩ := lookups_congr h.slots
  have hroot : d'.root = d.root := congrArg Prod.fst h.landmarks
  have htag : d'.tag? = d.tag? := funext fun x => tag?_eq_of_kind? (congrFun hkind x)
  have hblock : ∀ pre, d'.Block c pre ↔ d.Block c pre := fun pre => by
    constructor
    · exact fun hb => ⟨htag ▸ hb.tag_code, hparent ▸ hb.link, htag ▸ hb.tag_pre⟩
    · exact fun hb => ⟨htag ▸ hb.tag_code, hparent ▸ hb.link, htag ▸ hb.tag_pre⟩
  rw [Document.isBlock_iff (h.wellFormed hw), Document.isBlock_iff hw, hcontains, hroot,
    h.atOrAbove_iff]
  simp only [hblock]

theorem Settled.congr (hs : d.Settled) (hw : d.WellFormed) (h : d.SameArena d') : d'.Settled := by
  intro c pre hc hl
  obtain ⟨-, hkind, hparent, -⟩ := lookups_congr h.slots
  rw [hparent] at hl ⊢
  rw [hasClass_congr (congrFun hkind pre)]
  exact hs c pre ((h.isBlock_iff hw c).mp hc) hl

/-! ## §2 The next pass -/

/-- A block of a settled document is left alone. -/
theorem takeBlock_of_settled {p : Pass} (hs : p.document.Settled) (clipboard : String) {c : NodeId}
    (hc : p.document.isBlock c) :
    (p.takeBlock clipboard c).document = p.document ∧
      (p.takeBlock clipboard c).summary.found = p.summary.found ∧
      (p.takeBlock clipboard c).summary.enhanced = p.summary.enhanced ∧
      (p.takeBlock clipboard c).summary.skipped + (p.takeBlock clipboard c).summary.failed =
        p.summary.skipped + p.summary.failed + 1 := by
  obtain ⟨pre, hb⟩ := block_of_isBlock hc
  by_cases hm : p.document.hasClass pre enhancedClass
  · rw [Pass.takeBlock, enhanceBlock_of_marked hb.link hm]
    refine ⟨rfl, rfl, rfl, ?_⟩
    show p.summary.skipped + 1 + p.summary.failed = _
    omega
  · have hroot := (hs c pre hc hb.link).resolve_left hm
    rw [Pass.takeBlock, enhanceBlock_of_stuck hb.link (Bool.eq_false_iff.mpr hm) hroot]
    exact ⟨rfl, rfl, rfl, rfl⟩

theorem foldl_takeBlock_of_settled {cs : List NodeId} {p : Pass} (hs : p.document.Settled)
    (clipboard : String) (hcs : ∀ c ∈ cs, p.document.isBlock c) :
    (cs.foldl (Pass.takeBlock clipboard) p).document = p.document ∧
      (cs.foldl (Pass.takeBlock clipboard) p).summary.found = p.summary.found ∧
      (cs.foldl (Pass.takeBlock clipboard) p).summary.enhanced = p.summary.enhanced ∧
      (cs.foldl (Pass.takeBlock clipboard) p).summary.skipped +
          (cs.foldl (Pass.takeBlock clipboard) p).summary.failed =
        p.summary.skipped + p.summary.failed + cs.length := by
  induction cs generalizing p with
  | nil => exact ⟨rfl, rfl, rfl, rfl⟩
  | cons c cs ih =>
    obtain ⟨hd, hf, he, ht⟩ := takeBlock_of_settled hs clipboard (hcs c List.mem_cons_self)
    obtain ⟨hd', hf', he', ht'⟩ := ih (p := p.takeBlock clipboard c) (by rwa [hd])
      fun x hx => by rw [hd]; exact hcs x (List.mem_cons_of_mem _ hx)
    rw [List.foldl_cons, List.length_cons]
    exact ⟨hd'.trans hd, hf'.trans hf, he'.trans he, by omega⟩

/-- A pass over a settled document changes nothing at all. -/
theorem enhance_of_settled (hw : d.WellFormed) (hs : d.Settled) (clipboard : String) :
    (d.enhance clipboard).document = d ∧
      (d.enhance clipboard).summary.found = d.codeBlocks.length ∧
      (d.enhance clipboard).summary.enhanced = 0 ∧
      (d.enhance clipboard).summary.skipped + (d.enhance clipboard).summary.failed =
        d.codeBlocks.length := by
  have hsummary : ∀ p : Pass, p.finish.summary = p.summary := fun p => by
    rw [Pass.finish]
    split <;> rfl
  obtain ⟨hd, hf, he, ht⟩ := foldl_takeBlock_of_settled (p := .start d d.codeBlocks.length) hs
    clipboard fun c hc => (mem_codeBlocks_iff hw).mp hc
  rw [enhance, document_finish, hsummary]
  exact ⟨hd, hf, he, by simpa [Pass.start] using ht⟩

theorem RootApart.enhance (hw : d.WellFormed) (hr : d.RootApart) (clipboard : String) :
    (d.enhance clipboard).document.RootApart := by
  intro t ht
  obtain ⟨os, h⟩ := enhance_progress hw clipboard
  have hroot : d.root ∉ os.flatMap Outfit.made := fun hm => by
    obtain ⟨o, ho, -⟩ := List.mem_flatMap.mp hm
    exact h.not_made (h.contains_root hw ho) hm
  rw [root_enhance hw, h.enhanced.tag? hroot] at ht
  exact hr t ht

/-- A pass after a pass, by whomever, finds the blocks of the first one, passes them all over, and
leaves the document exactly as it is. -/
theorem enhance_enhance (hw : d.WellFormed) (first second : String)
    (hd' : d' = (d.enhance first).document) :
    (d'.enhance second).document = d' ∧
      (d'.enhance second).summary.enhanced = 0 ∧
      (d'.enhance second).summary.found = (d.enhance first).summary.found ∧
      (d'.enhance second).summary.skipped + (d'.enhance second).summary.failed =
        (d.enhance first).summary.found ∧
      (d.RootApart → (d'.enhance second).summary.failed = 0) := by
  have hw' := (changes_enhance hw first).wellFormed hw
  have hsettled := settled_enhance hw first
  have hlength := length_codeBlocks_enhance hw first
  have hroot := fun hr => RootApart.enhance hw hr first
  rw [← hd'] at hw' hsettled hlength hroot
  obtain ⟨os, h⟩ := enhance_progress hw first
  obtain ⟨os', h'⟩ := enhance_progress hw' second
  obtain ⟨hd, hf, he, ht⟩ := enhance_of_settled hw' hsettled second
  rw [hlength, ← h.found] at hf ht
  exact ⟨hd, he, hf, ht, fun hr => h'.failed_eq hw' (hroot hr)⟩

/-! ## §3 Marks last -/

theorem not_contains_of_empties {x : NodeId} (h : Empties x.index d d') (hx : d.contains x) :
    d'.contains x = false := by
  rw [Bool.eq_false_iff]
  intro hx'
  have hg := h _ (generation?_of_contains hx)
  rw [generation?_of_contains hx'] at hg
  simp at hg

theorem Change.hasClass (hw : d.WellFormed) (h : d.Change d') {x : NodeId} {c : String}
    (hx : d'.contains x) (hc : d.hasClass x c) : d'.hasClass x c := by
  cases he : d.element? x with
  | none => simp [Document.hasClass, he] at hc
  | some e =>
    have hlive := contains_of_element? he
    rcases h.keeps_or_empties hw x.index with hk | hk
    swap
    · simp [not_contains_of_empties hk hlive] at hx
    have htag : d'.tag? x = some e.tag := by rw [(hk.node x rfl hlive).2, tag?, he]; rfl
    obtain ⟨e', he', -⟩ := tag?_eq_some_iff.mp htag
    obtain ⟨P, hin, -⟩ := h.inherits hw
    obtain ⟨e₀, he₀, -, hsub⟩ := hin.element x e' hlive he'
    obtain rfl := Option.some.inj (he.symm.trans he₀)
    rw [hasClass_of_element? he] at hc
    rw [hasClass_of_element? he']
    exact hsub c hc

theorem Grows.hasClass (hw : d.WellFormed) (h : Grows d d') {x : NodeId} {c : String}
    (hc : d.hasClass x c) : d'.hasClass x c := by
  induction h with
  | refl => exact hc
  | @tail d₁ d₂ h₁ h₂ ih =>
    have hlive : d₁.contains x := by
      by_contra hx
      have : d₁.element? x = none := by
        simp [element?, kind?_eq_none_iff.mpr (Bool.eq_false_iff.mpr hx)]
      simp [Document.hasClass, this] at ih
    cases h₂ with
    | adds h₂ =>
      exact h₂.change.hasClass (Grows.wellFormed hw h₁) ((h₂.keeps x.index).node x rfl hlive).1 ih
    | same h₂ => rwa [hasClass_congr (congrFun (lookups_congr h₂.slots).2.1 x)]

/-- A class stays on an element for as long as the element is there. -/
theorem Works.hasClass (hw : d.WellFormed) (h : d.Works d') {x : NodeId} {c : String}
    (hx : d'.contains x) (hc : d.hasClass x c) : d'.hasClass x c := by
  cases h with
  | grow h => exact Grows.hasClass hw h hc
  | change h h' => exact h'.hasClass (Grows.wellFormed hw h) hx (Grows.hasClass hw h hc)

end CopyControl.Document
