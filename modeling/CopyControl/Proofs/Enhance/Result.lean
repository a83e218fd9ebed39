import CopyControl.Proofs.Document.Reissue
import CopyControl.Proofs.Enhance.Pass

/-!
What a pass comes to, on every document that operations lead to.

`PassCorrect` has the two halves of it: what the pass answers, counted on the document before,
and what it leaves behind. `Outfit.Stands` says what one control looks like.

A pass fails at no block but one whose `pre` has no parent, so the root must not be a `pre`. It is
none as long as its handle is not given out again (`passCorrect_runAll`), and after that it can be
one (`not_passCorrect_rootReissued`).
-/

namespace CopyControl.Document

open Enhance

variable {d d' : Document} {clipboard : String}

/-! ## §1 One control -/

/-- The outfit stands complete in `d'`, which a pass over `d` has led to. -/
structure Outfit.Stands (o : Outfit) (d d' : Document) (clipboard : String) : Prop where
  /-- The nodes are new, and there are four of them. -/
  new : o.made.Nodup ∧ ∀ y ∈ o.made, d.contains y = false
  /-- The `pre` has both marks. -/
  pre : d'.hasClass o.pre enhancedClass ∧ d'.hasClass o.pre wrapLinesClass
  /-- The wrapper is where the `pre` was, and holds the `pre` and the actions. -/
  wrapper : d'.kind? o.wrapper = some (.element (boxElement wrapperClass)) ∧
    d'.parent? o.wrapper = d.parent? o.pre ∧ d'.children o.wrapper = [o.pre, o.actions]
  /-- The actions hold the button. -/
  actions : d'.kind? o.actions = some (.element (boxElement actionsClass)) ∧
    d'.children o.actions = [o.button]
  /-- The button shows its first label, and has one listener. -/
  button : d'.kind? o.button = some (.element controlElement) ∧
    d'.children o.button = [o.label] ∧
    d'.kind? o.label = some (.text ControlLabel.copy.text) ∧
    d'.clickListeners o.button = [.copyBlock o.code o.button clipboard]
  /-- The block is the first `code` in the `pre`. -/
  code : (d.children o.pre).find? (fun c => d.tag? c = some "code") = some o.code

theorem filter_fst_of_nodup {α β : Type} [DecidableEq α] {l : List (α × β)} {a : α} {b : β}
    (hn : (l.map Prod.fst).Nodup) (h : (a, b) ∈ l) : l.filter (·.1 = a) = [(a, b)] := by
  induction l with
  | nil => simp at h
  | cons x l ih =>
    rw [List.map_cons, List.nodup_cons] at hn
    rcases List.mem_cons.mp h with rfl | h
    · have hrest : l.filter (·.1 = a) = [] := by
        refine List.filter_eq_nil_iff.mpr fun y hy hya => hn.1 ?_
        exact List.mem_map.mpr ⟨y, hy, by simpa using hya⟩
      rw [List.filter_cons_of_pos (by simp), hrest]
    · have hne : x.1 ≠ a := fun hx => hn.1 (hx ▸ List.mem_map_of_mem h)
      rw [List.filter_cons_of_neg (by simpa using hne), ih hn.2 h]

theorem buttons_sublist (os : List Outfit) :
    (os.map Outfit.button).Sublist (os.flatMap Outfit.made) := by
  induction os with
  | nil => exact List.Sublist.refl _
  | cons o os ih =>
    have h : [o.button].Sublist o.made := by simp [Outfit.made]
    simpa using h.append ih

/-- A new control has the listener it was made with, and no other. -/
theorem Enhanced.clickListeners_button (hw : d.WellFormed) {os : List Outfit}
    (h : d.Enhanced d' os clipboard) {o : Outfit} (ho : o ∈ os) :
    d'.clickListeners o.button = [.copyBlock o.code o.button clipboard] := by
  have hold : d.listeners.filter (·.1 = o.button) = [] := by
    refine List.filter_eq_nil_iff.mpr fun l hl hlb => ?_
    have hdead := h.made_fresh o ho o.button (by simp [Outfit.made])
    rw [← (by simpa using hlb : l.1 = o.button), hw.listeners_live l hl] at hdead
    simp at hdead
  have hnew : ((os.map fun o => (o.button, Listener.copyBlock o.code o.button clipboard)).map
      Prod.fst).Nodup := by
    rw [List.map_map]
    exact (buttons_sublist os).nodup h.made_nodup
  rw [clickListeners, h.listeners, List.filter_append, hold, List.nil_append,
    filter_fst_of_nodup hnew (List.mem_map.mpr ⟨o, ho, rfl⟩)]
  rfl

theorem Progress.stands (hw : d.WellFormed) (hr : d.RootApart) {p : Pass} {os : List Outfit}
    (h : d.Progress clipboard d.codeBlocks p os) {o : Outfit} (ho : o ∈ os) :
    o.Stands d p.document clipboard := by
  have he := h.enhanced
  have hn : o.made.Nodup := (List.nodup_flatMap.mp he.made_nodup).1 o ho
  obtain ⟨hwa, hwb, hwl, hab, hal, hbl⟩ := Outfit.distinct hn
  obtain ⟨container, hc, hpar⟩ := he.parent?_made o ho
  have hkind := he.kind?_made o ho
  have hch := he.children_made o ho
  simp only [Outfit.made, List.forall_mem_cons, Outfit.madeKind, Outfit.madeParent,
    Outfit.madeChildren, if_true] at hkind hpar hch
  obtain ⟨hkw, hka, hkb, hkl, -⟩ := hkind
  obtain ⟨hcw, hca, hcb, -, -⟩ := hch
  obtain ⟨hpw, -⟩ := hpar
  constructor
  case new => exact ⟨hn, he.made_fresh o ho⟩
  case pre => exact he.hasClass_pre ho
  case wrapper =>
    exact ⟨hkw, hpw.trans hc.symm, hcw⟩
  case actions =>
    rw [if_neg hwa.symm] at hka hca
    exact ⟨hka, hca⟩
  case button =>
    rw [if_neg hwb.symm, if_neg hab.symm] at hkb hcb
    rw [if_neg hwl.symm, if_neg hal.symm, if_neg hbl.symm] at hkl
    exact ⟨hkb, hcb, hkl, he.clickListeners_button hw ho⟩
  case code => exact h.find?_code hw hr ho

/-! ## §2 The whole -/

/-- What a pass over `d` has come to in the end, as `p`. -/
structure PassCorrect (d : Document) (clipboard : String) (p : Pass) : Prop where
  failed : p.summary.failed = 0
  total : p.summary.found = p.summary.enhanced + p.summary.skipped
  found : p.summary.found = d.liveNodes.countP d.isBlock
  enhanced : p.summary.enhanced = d.liveNodes.countP d.isBare
  /-- Every connected block has its mark afterwards. -/
  marked : ∀ c pre, p.document.isBlock c → p.document.parent? c = some pre →
    p.document.hasClass pre enhancedClass
  /-- Each bare `pre` got an outfit, whose wrapper stands where the `pre` stood; all other nodes
  stand where they stood. -/
  outfits : ∃ os : List Outfit, (os.flatMap Outfit.made).Nodup ∧ (os.map Outfit.pre).Nodup ∧
    (∀ pre, pre ∈ os.map Outfit.pre ↔ d.isBare pre) ∧
    (∀ n, d.contains n → p.document.children n = (d.children n).map (wrapperOf os)) ∧
    ∀ o ∈ os, o.Stands d p.document clipboard

theorem passCorrect_enhance (hw : d.WellFormed) (hr : d.RootApart) (clipboard : String) :
    PassCorrect d clipboard (d.enhance clipboard) := by
  obtain ⟨os, h⟩ := enhance_progress hw clipboard
  have hroot : (d.enhance clipboard).document.root = d.root :=
    congrArg Prod.fst (changes_enhance hw clipboard).landmarks_eq
  have hmem : ∀ pre, pre ∈ os.map Outfit.pre ↔ d.isBare pre := fun _ => h.mem_pres_iff hw hr
  constructor
  case failed => exact h.failed_eq hw hr
  case total => rw [h.found, ← h.total, h.failed_eq hw hr, Nat.add_zero]
  case found =>
    rw [h.found]
    refine length_eq_countP (nodup_codeBlocks hw) (fun x => mem_codeBlocks_iff hw) fun x hx => ?_
    obtain ⟨pre, hb⟩ := block_of_isBlock hx
    exact contains_of_tag? hb.tag_code
  case enhanced =>
    rw [h.made, ← List.length_map (f := Outfit.pre)]
    exact length_eq_countP h.enhanced.pres_nodup hmem fun x hx =>
      contains_of_isConnected (isBare_iff.mp hx).1
  case marked => exact fun c pre hc hl => h.hasClass_of_isBlock hw hr hroot hc hl
  case outfits =>
    exact ⟨os, h.enhanced.made_nodup, h.enhanced.pres_nodup, hmem,
      fun n hn => h.enhanced.children_rest n (h.not_made hn), fun o ho => h.stands hw hr ho⟩

theorem tag?_new_root : new.tag? new.root = some "html" := by
  rw [tag?, element?, kind?, node?_new, if_pos rfl]
  have h : Element.ofTag "html" = ⟨"html", [], []⟩ := ofTag_eq (by decide)
  simp [NodeKind.element?, h]

/-- As long as the root's handle is not issued again, which takes `2 ^ 32` times of freeing the
root's slot, a pass over any document that operations lead to is correct. -/
theorem passCorrect_runAll (ops : List Operation) (clipboard : String)
    (h : timesEmptied new.root.index ops new < UInt32.size) :
    PassCorrect (Operation.runAll ops new) clipboard
      ((Operation.runAll ops new).enhance clipboard) := by
  refine passCorrect_enhance (wellFormed_runAll wellFormed_new ops) (fun t ht => ?_) clipboard
  have hroot : (Operation.runAll ops new).root = new.root :=
    congrArg Prod.fst (landmarks_runAll wellFormed_new ops)
  rw [hroot] at ht
  rw [tag?_runAll wellFormed_new (contains_of_tag? tag?_new_root) h (contains_of_tag? ht),
    tag?_new_root] at ht
  obtain rfl := Option.some.inj ht
  decide

/-- A page with one block. -/
def oneBlock : List Operation :=
  [.createElement "pre", .createElement "code", .appendChild ⟨3, 0⟩ ⟨4, 0⟩,
    .appendChild new.body ⟨3, 0⟩]

theorem passCorrect_oneBlock :
    timesEmptied new.root.index oneBlock new < UInt32.size ∧
      PassCorrect (Operation.runAll oneBlock new) "" ((Operation.runAll oneBlock new).enhance "") :=
  have h : timesEmptied new.root.index oneBlock new < UInt32.size := by decide +kernel
  ⟨h, passCorrect_runAll oneBlock "" h⟩

/-- When the root's slot has been emptied `2 ^ 32` times, the root can be a `pre` that holds a
block. It has no parent, so it cannot be wrapped. -/
theorem not_passCorrect_rootReissued :
    let d := Operation.runAll rootReissued new
    timesEmptied new.root.index rootReissued new = UInt32.size ∧ d.tag? d.root = some "pre" ∧
      (d.enhance "").summary = ⟨1, 0, 0, 1⟩ ∧ ¬ PassCorrect d "" (d.enhance "") := by
  intro d
  obtain ⟨hrun, htimes⟩ := rootReissued_spec
  have hd : d = Operation.runAll lonePre
      ((Operation.runAll rootReleased new).aged 0 (.ofNat (UInt32.size - 1))) := hrun
  -- `d` must not be unfolded, for the run has some billions of operations
  clear_value d
  have hroot : d.tag? d.root = some "pre" := by
    rw [hd]
    decide +kernel
  have hsummary : (d.enhance "").summary = ⟨1, 0, 0, 1⟩ := by
    rw [hd]
    decide +kernel
  refine ⟨htimes, hroot, hsummary, fun h => ?_⟩
  have hfailed := h.failed
  rw [hsummary] at hfailed
  cases hfailed

end CopyControl.Document
