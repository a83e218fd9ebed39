import CopyControl.Proofs.Enhance.Shape
import CopyControl.Proofs.Markdown.Nesting

/-!
The code blocks of a source, and what becomes of them.

In a source that is read from Markdown there is nothing but text in a code block (`Branch.isPlain`).
Then the trees that are drawn have a block for each code block of the source, in the same order, and
each says what the texts in its code block say, put together (`hasBlocks_sketch`). A `pre` on such a
page holds its block and nothing else (`Tree.Orderly`).

Table heads do not matter here, so this is shown of all that a source can be drawn as (`DrawnAs`).

* §1 code blocks of a source
* §2 trees in which a `pre` is a block
* §3 containers
* §4 drawings
-/

namespace CopyControl

open Document Markdown

/-! ## §1 Code blocks of a source -/

namespace Markdown

def Tag.isCodeBlock : Tag → Bool
  | .codeBlock _ => true
  | _ => false

/-- Whether a code block begins with the event. -/
def Event.startsBlock : Event → Bool
  | .start tag => tag.isCodeBlock
  | _ => false

def Branch.isText : Branch → Bool
  | .text _ => true
  | _ => false

mutual

/-- Whether there is nothing but text in the code blocks of a branch. -/
def Branch.isPlain : Branch → Bool
  | .container tag content =>
    if tag.isCodeBlock then content.all Branch.isText else allPlain content
  | _ => true

def allPlain : List Branch → Bool
  | [] => true
  | p :: ps => p.isPlain && allPlain ps

end

mutual

/-- What the code blocks of a branch say, in order: for each of them its texts put together. -/
def Branch.blockTexts : Branch → List String
  | .container tag content =>
    if tag.isCodeBlock then [String.join (textsOf content)] else blockTextsOf content
  | _ => []

def blockTextsOf : List Branch → List String
  | [] => []
  | p :: ps => p.blockTexts ++ blockTextsOf ps

end

/-- Branches that are texts are their texts. -/
theorem eq_map_text {ps : List Branch} (h : ps.all Branch.isText) :
    ps = (textsOf ps).map .text := by
  induction ps with
  | nil => rfl
  | cons p ps ih =>
    obtain ⟨hp, hps⟩ := Bool.and_eq_true_iff.mp (List.all_cons ▸ h)
    cases p with
    | text s => simpa [textsOf, Branch.texts] using ih hps
    | _ => simp [Branch.isText] at hp

theorem countP_startsBlock_of_isText {ps : List Branch} (h : ps.all Branch.isText) :
    (eventsOf ps).countP Event.startsBlock = 0 := by
  rw [eq_map_text h]
  induction textsOf ps with
  | nil => rfl
  | cons s texts ih => simpa [eventsOf, Branch.events, Event.startsBlock] using ih

mutual

theorem length_blockTexts : (p : Branch) → p.isPlain →
    p.blockTexts.length = p.events.countP Event.startsBlock
  | .container tag content => fun h => by
    have hcount : (Branch.container tag content).events.countP Event.startsBlock =
        (eventsOf content).countP Event.startsBlock + tag.isCodeBlock.toNat := by
      cases htag : tag.isCodeBlock <;>
        simp [Branch.events, Event.startsBlock, htag]
    rw [hcount]
    cases htag : tag.isCodeBlock with
    | true =>
      have htexts : content.all Branch.isText := by simpa [Branch.isPlain, htag] using h
      rw [countP_startsBlock_of_isText htexts]
      simp [Branch.blockTexts, htag]
    | false =>
      have hplain : allPlain content := by simpa [Branch.isPlain, htag] using h
      simpa [Branch.blockTexts, htag] using length_blockTextsOf content hplain
  | .text _ | .code _ | .html _ | .inlineHtml _ | .softBreak | .hardBreak | .rule | .taskMarker _
  | .unsupported => fun _ => rfl

/-- There is a text for each start of a code block. -/
theorem length_blockTextsOf : (ps : List Branch) → allPlain ps →
    (blockTextsOf ps).length = (eventsOf ps).countP Event.startsBlock
  | [] => fun _ => rfl
  | p :: ps => fun h => by
    obtain ⟨hp, hps⟩ := Bool.and_eq_true_iff.mp h
    rw [blockTextsOf, List.length_append, eventsOf, List.countP_append, length_blockTexts p hp,
      length_blockTextsOf ps hps]

end

end Markdown

/-! ## §2 Trees in which a `pre` is a block -/

namespace Tree

/-- A node that is a text. -/
def ofText (s : String) : Tree :=
  .node default (.text s) []

/-- An element that has texts in it and nothing else. -/
def ofTexts (e : Element) (texts : List String) : Tree :=
  .node default (.element e) (texts.map ofText)

/-- Each `pre` in the tree holds a `code`, with texts in it, and nothing else. -/
inductive Orderly : Tree → Prop
  | node {n : NodeId} {k : NodeKind} {ts : List Tree}
      (hpre : k.hasTag "pre" → ∃ e texts, ts = [ofTexts e texts] ∧ e.tag = "code")
      (hts : ∀ t ∈ ts, t.Orderly) : Orderly (.node n k ts)

/-- What the blocks in some trees say, in document order. -/
def blockTexts (ts : List Tree) : List String :=
  (ts.flatMap blocks).map fun t => .ofList t.innerText

theorem blocksIn_of_not_pre {k : NodeKind} (hk : k.hasTag "pre" = false) (ts : List Tree) :
    blocksIn k ts = ts.flatMap blocks := by
  induction ts with
  | nil => rfl
  | cons t ts ih => rw [blocksIn, hk, ih, List.flatMap_cons]; rfl

theorem blockTexts_append (ts us : List Tree) :
    blockTexts (ts ++ us) = blockTexts ts ++ blockTexts us := by
  simp [blockTexts]

/-- What is around blocks is no part of them, as long as it is no `pre`. -/
theorem blockTexts_node {n : NodeId} {k : NodeKind} (hk : k.hasTag "pre" = false)
    (ts : List Tree) : blockTexts [.node n k ts] = blockTexts ts := by
  rw [blockTexts, List.flatMap_singleton, blocks, blocksIn_of_not_pre hk, blockTexts]

theorem orderly_node {n : NodeId} {k : NodeKind} (hk : k.hasTag "pre" = false) {ts : List Tree}
    (hts : ∀ t ∈ ts, t.Orderly) : Orderly (.node n k ts) :=
  .node (by simp [hk]) hts

theorem hasTag_element (e : Element) (tag : String) :
    (NodeKind.element e).hasTag tag = decide (e.tag = tag) := by
  simp [NodeKind.hasTag, NodeKind.element?]

section ofTexts
variable {e : Element} (texts : List String)

theorem innerTexts_map_ofText : innerTexts (texts.map ofText) = texts.flatMap String.toList := by
  induction texts with
  | nil => rfl
  | cons s texts ih => rw [List.map_cons, innerTexts, ih, List.flatMap_cons, ofText, innerText]

theorem orderly_ofTexts (he : e.tag ≠ "pre") : (ofTexts e texts).Orderly := by
  refine orderly_node (by simpa [hasTag_element] using he) fun t ht => ?_
  obtain ⟨s, -, rfl⟩ := List.mem_map.mp ht
  exact orderly_node rfl (by simp)

theorem blocks_ofTexts (he : e.tag ≠ "pre") : (ofTexts e texts).blocks = [] := by
  rw [ofTexts, blocks, blocksIn_of_not_pre (by simpa [hasTag_element] using he)]
  refine List.flatMap_eq_nil_iff.mpr fun t ht => ?_
  obtain ⟨s, -, rfl⟩ := List.mem_map.mp ht
  rfl

/-- The texts in a block are what it says. -/
theorem innerText_ofTexts (he : e.tag = "code") :
    .ofList (ofTexts e texts).innerText = String.join texts := by
  have hne : e.tag ≠ "br" := by simp [he]
  rw [ofTexts, innerText, if_neg hne, innerTexts_map_ofText]
  apply String.toList_inj.mp
  rw [String.toList_ofList, String.toList_join]

/-- A `pre` with a block in it. -/
theorem blocks_pre (he : e.tag = "code") {n : NodeId} {k : NodeKind} (hk : k.hasTag "pre") :
    (Tree.node n k [ofTexts e texts]).blocks = [ofTexts e texts] := by
  have hcode : (ofTexts e texts).kind.hasTag "code" := by
    simp [ofTexts, kind, hasTag_element, he]
  rw [blocks, blocksIn, hk, hcode, blocks_ofTexts texts (by simp [he])]
  rfl

theorem orderly_pre (he : e.tag = "code") (n : NodeId) (k : NodeKind) :
    Orderly (.node n k [ofTexts e texts]) :=
  .node (fun _ => ⟨e, texts, rfl, he⟩) <| by
    simpa using orderly_ofTexts texts (by simp [he])

end ofTexts

/-- The trees are orderly, and their blocks say `texts`. -/
structure HasBlocks (ts : List Tree) (texts : List String) : Prop where
  orderly : ∀ t ∈ ts, t.Orderly
  blockTexts : blockTexts ts = texts

namespace HasBlocks

variable {ts us : List Tree} {texts more : List String}

theorem nil : HasBlocks [] [] := ⟨by simp, rfl⟩

theorem append (h : HasBlocks ts texts) (h' : HasBlocks us more) :
    HasBlocks (ts ++ us) (texts ++ more) where
  orderly := List.forall_mem_append.mpr ⟨h.orderly, h'.orderly⟩
  blockTexts := by rw [blockTexts_append, h.blockTexts, h'.blockTexts]

/-- What is around trees adds no block as long as it is no `pre`. -/
theorem node (h : HasBlocks ts texts) (n : NodeId) {k : NodeKind} (hk : k.hasTag "pre" = false) :
    HasBlocks [.node n k ts] texts where
  orderly := by simpa using orderly_node hk h.orderly
  blockTexts := (blockTexts_node hk ts).trans h.blockTexts

theorem leaf {k : NodeKind} (hk : k.hasTag "pre" = false) : HasBlocks [.node default k []] [] :=
  nil.node default hk

end HasBlocks

end Tree

/-! ## §3 Containers -/

namespace Markdown

open CopyControl.Tree

/-- Only a code block opens a `pre`. -/
theorem tag_ne_pre {tag : Tag} (htag : tag.isCodeBlock = false) {inTableHead : Bool}
    {texts : List String} : ∀ e ∈ tag.elementsAround inTableHead texts, e.tag ≠ "pre" := by
  have hnames : "pre" ∉ tag.elementNames inTableHead := by
    cases tag with
    | codeBlock info => simp [Tag.isCodeBlock] at htag
    | heading level => cases level <;> simp [Tag.elementNames, HeadingLevel.elementName]
    | list start => cases start <;> simp [Tag.elementNames]
    | tableCell => cases inTableHead <;> decide
    | _ => simp [Tag.elementNames]
  rw [← map_tag_elementsAround tag inTableHead texts] at hnames
  exact fun e he hpre => hnames (List.mem_map.mpr ⟨e, he, hpre⟩)

/-- Elements around trees add no block as long as there is no `pre` among them. -/
theorem hasBlocks_wrapAll {es : List Element} (hes : ∀ e ∈ es, e.tag ≠ "pre") {ts : List Tree}
    {texts : List String} (h : HasBlocks ts texts) : HasBlocks (wrapAll es ts) texts := by
  induction es with
  | nil => exact h
  | cons e es ih =>
    obtain ⟨he, hes⟩ := List.forall_mem_cons.mp hes
    exact (ih hes).node default (by simpa [hasTag_element] using he)

/-! ## §4 Drawings -/

variable {inImage : Bool} {ps : List Branch} {ts : List Tree}

/-- Texts are drawn as texts. -/
theorem DrawnAs.eq_map_ofText (h : DrawnAs inImage ps ts) (himage : inImage = false)
    (hps : ps.all Branch.isText) : ts = (textsOf ps).map ofText := by
  induction h with
  | nil => rfl
  | @single _ p ps us head _ _ ih =>
    obtain ⟨hp, hps⟩ := Bool.and_eq_true_iff.mp (List.all_cons ▸ hps)
    cases p with
    | text s => simp [Branch.trees, himage, textsOf, Branch.texts, ofText, ih himage hps]
    | _ => simp [Branch.isText] at hp
  | container => simp [Branch.isText] at hps

/-- A code block becomes a block. -/
theorem hasBlocks_codeBlock (info : Option String) (inTableHead : Bool) (texts : List String) :
    HasBlocks (wrapAll ((Tag.codeBlock info).elementsAround inTableHead texts) (texts.map ofText))
      [String.join texts] := by
  have hpre : (NodeKind.element (.ofTag "pre")).hasTag "pre" := by decide +kernel
  have hcode := tag_codeElement info
  have htrees : wrapAll ((Tag.codeBlock info).elementsAround inTableHead texts)
      (texts.map ofText) =
        [.node default (.element (.ofTag "pre")) [ofTexts (codeElement info) texts]] := rfl
  rw [htrees]
  constructor
  · simpa using orderly_pre texts hcode _ _
  · rw [Tree.blockTexts, List.flatMap_singleton, blocks_pre _ hcode hpre, List.map_singleton,
      innerText_ofTexts _ hcode]

/-- What is no container is drawn without a block. -/
theorem hasBlocks_single {p : Branch} (hp : p.isContainer = false) (head inImage : Bool) :
    HasBlocks (p.trees head inImage) p.blockTexts := by
  cases p with
  | container => simp [Branch.isContainer] at hp
  | text s =>
    rw [Branch.trees]
    split
    · exact .nil
    · exact .leaf rfl
  | code s =>
    have htext : HasBlocks [.node default (.text s) []] [] := .leaf rfl
    exact htext.node default (by decide +kernel)
  | html | inlineHtml | softBreak => exact .leaf rfl
  | hardBreak | rule => exact .leaf (by decide +kernel)
  | taskMarker checked => exact .leaf (by cases checked <;> decide +kernel)
  | unsupported => exact .nil

/-- Drawings have a block for each code block of the branches. -/
theorem DrawnAs.hasBlocks (h : DrawnAs inImage ps ts) (hplain : allPlain ps) :
    HasBlocks ts (blockTextsOf ps) := by
  induction h with
  | nil => exact .nil
  | single head hp _ ih =>
    exact (hasBlocks_single hp _ _).append (ih (Bool.and_eq_true_iff.mp hplain).2)
  | @container _ tag content ps ts us head hcontent _ ihc ih =>
    obtain ⟨hp, hps⟩ := Bool.and_eq_true_iff.mp hplain
    refine .append ?_ (ih hps)
    cases htag : tag.isCodeBlock with
    | true =>
      obtain ⟨info, rfl⟩ : ∃ info, tag = .codeBlock info := by
        cases tag <;> simp_all [Tag.isCodeBlock]
      have htexts : content.all Branch.isText := by simpa [Branch.isPlain, htag] using hp
      rw [hcontent.eq_map_ofText rfl htexts]
      simpa [Branch.blockTexts, htag] using hasBlocks_codeBlock info head (textsOf content)
    | false =>
      have hinside : allPlain content := by simpa [Branch.isPlain, htag] using hp
      simpa [Branch.blockTexts, htag] using hasBlocks_wrapAll (tag_ne_pre htag) (ihc hinside)

/-- A source without anything but text in its code blocks is drawn as orderly trees, with a block
for each code block. -/
theorem hasBlocks_sketch {events : List Event} (hp : eventTree? events = some ps)
    (h : allPlain ps) : HasBlocks (sketch events) (blockTextsOf ps) :=
  (drawnAs_sketch hp).hasBlocks h

end Markdown

end CopyControl
