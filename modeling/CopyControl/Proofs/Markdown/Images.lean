import CopyControl.Markdown.Reader
import CopyControl.Proofs.Document.Spoken
import CopyControl.Proofs.Markdown.Fresh
import CopyControl.Proofs.Markdown.Nesting

/-!
What the images of a page say, and which words of a source get lost.

An image is described by the texts directly inside it. A text that stands deeper, inside emphasis or
a link, and a piece of code get nodes of their own below the `img`. There they are part of the
document, but neither of the `alt` nor of the HTML, in which nothing below a void element is written
(`alts_unspoken`). `alts_buildPage` says that this is all that is lost: an `alt` is the whole
description just if there is no such word with any characters, and each word of a source is spoken
unless it is one of these.

* §1 the words of a source
* §2 words that are spoken, and words that are not
* §3 drawings
* §4 fresh pages
-/

namespace CopyControl.Markdown

open Document

/-! ## §1 The words of a source -/

/-- What an event says, if it is text or code. -/
def Event.word? : Event → Option String
  | .text s | .code s => some s
  | _ => none

def wordsOf (events : List Event) : List String :=
  events.filterMap Event.word?

/-- The plain text of what is in an image: all its words, at whatever depth. -/
def description (content : List Branch) : String :=
  String.join (wordsOf (eventsOf content))

def Tag.isImage : Tag → Bool
  | .image _ _ => true
  | _ => false

def Tag.isHtmlBlock : Tag → Bool
  | .htmlBlock => true
  | _ => false

mutual

/-- What is in the images of a branch, in the order of their starts. -/
def Branch.images : Branch → List (List Branch)
  | .container tag content => (if tag.isImage then [content] else []) ++ imagesIn content
  | _ => []

def imagesIn : List Branch → List (List Branch)
  | [] => []
  | p :: ps => p.images ++ imagesIn ps

end

mutual

/-- What a branch says where images are not seen: its words and line breaks outside of images, and
for an image the texts directly inside it. -/
def Branch.spoken : Branch → List String
  | .text s | .code s => [s]
  | .softBreak => ["\n"]
  | .container tag content =>
    if tag.isImage then [String.join (textsOf content)] else spokenIn content
  | _ => []

def spokenIn : List Branch → List String
  | [] => []
  | p :: ps => p.spoken ++ spokenIn ps

end

mutual

/-- The words of a branch inside an image that do not come into its `alt`, given whether there is no
element between the branch and the image. -/
def Branch.unspoken (direct : Bool) : Branch → List String
  | .text s => if direct then [] else [s]
  | .code s => [s]
  | .container tag content => unspokenIn (direct && tag.isHtmlBlock) content
  | _ => []

def unspokenIn (direct : Bool) : List Branch → List String
  | [] => []
  | p :: ps => p.unspoken direct ++ unspokenIn direct ps

end

theorem wordsOf_container (tag : Tag) (content : List Branch) :
    wordsOf (Branch.container tag content).events = wordsOf (eventsOf content) := by
  rw [wordsOf, Branch.events, List.cons_append, List.filterMap_cons_none rfl,
    List.filterMap_append, List.filterMap_cons_none rfl, List.filterMap_nil, List.append_nil]
  rfl

theorem wordsOf_eventsOf_cons (p : Branch) (ps : List Branch) :
    wordsOf (eventsOf (p :: ps)) = wordsOf p.events ++ wordsOf (eventsOf ps) :=
  List.filterMap_append

theorem textsAround_eq (tag : Tag) (texts : List String) :
    tag.textsAround texts = if tag.isHtmlBlock then texts else [] := by
  cases tag <;> rfl

/-! ## §2 Words that are spoken, and words that are not -/

mutual

theorem perm_wordsOf_events (direct : Bool) : (p : Branch) →
    (wordsOf p.events).Perm ((if direct then p.texts else []) ++ p.unspoken direct)
  | .container tag content => by
    have hcontent := perm_wordsOf (direct && tag.isHtmlBlock) content
    rw [wordsOf_container, Branch.texts, textsAround_eq, Branch.unspoken]
    cases direct <;> cases htag : tag.isHtmlBlock <;> simpa [htag] using hcontent
  | .text s => by cases direct <;> exact .refl _
  | .code _ | .html _ | .inlineHtml _ | .softBreak | .hardBreak | .rule | .taskMarker _
  | .unsupported => by cases direct <;> exact .refl _

/-- The words inside an image are the texts directly inside it and those that are not spoken. -/
theorem perm_wordsOf (direct : Bool) : (ps : List Branch) →
    (wordsOf (eventsOf ps)).Perm ((if direct then textsOf ps else []) ++ unspokenIn direct ps)
  | [] => by cases direct <;> exact .refl _
  | p :: ps => by
    have hp := perm_wordsOf_events direct p
    have hps := perm_wordsOf direct ps
    rw [wordsOf_eventsOf_cons, textsOf, unspokenIn]
    refine (hp.append hps).trans (List.perm_iff_count.mpr fun w => ?_)
    cases direct
    · simp
    · simp only [if_true, List.count_append]
      omega

end

theorem flatMap_toList_eq_nil_iff {l : List String} :
    l.flatMap String.toList = [] ↔ ∀ w ∈ l, w = "" := by
  simp

mutual

theorem flatMap_wordsOf_events : (p : Branch) → (∀ w ∈ p.unspoken true, w = "") →
    (wordsOf p.events).flatMap String.toList = p.texts.flatMap String.toList
  | .container tag content => fun h => by
    rw [Branch.unspoken, Bool.true_and] at h
    rw [wordsOf_container, Branch.texts, textsAround_eq]
    cases htag : tag.isHtmlBlock with
    | true => exact flatMap_wordsOf content (htag ▸ h)
    | false =>
      -- all words are deeper inside
      rw [htag] at h
      refine flatMap_toList_eq_nil_iff.mpr fun w hw => h w ?_
      simpa using (perm_wordsOf false content).mem_iff.mp hw
  | .text _ => fun _ => rfl
  | .code s => fun h => by
    obtain rfl : s = "" := h s (List.mem_singleton.mpr rfl)
    rfl
  | .html _ | .inlineHtml _ | .softBreak | .hardBreak | .rule | .taskMarker _ | .unsupported =>
    fun _ => rfl

/-- If the words that are not spoken are empty, the texts directly inside say it all. -/
theorem flatMap_wordsOf : (ps : List Branch) → (∀ w ∈ unspokenIn true ps, w = "") →
    (wordsOf (eventsOf ps)).flatMap String.toList = (textsOf ps).flatMap String.toList
  | [] => fun _ => rfl
  | p :: ps => fun h => by
    obtain ⟨hp, hps⟩ := List.forall_mem_append.mp h
    rw [wordsOf_eventsOf_cons, textsOf, List.flatMap_append, List.flatMap_append,
      flatMap_wordsOf_events p hp, flatMap_wordsOf ps hps]

end

theorem join_textsOf_eq_iff (content : List Branch) :
    String.join (textsOf content) = description content ↔
      ∀ w ∈ unspokenIn true content, w = "" := by
  rw [description, ← String.toList_inj, String.toList_join, String.toList_join]
  constructor
  · intro h
    have hlength := ((perm_wordsOf true content).flatMap_right String.toList).length_eq
    rw [← h, if_pos rfl, List.flatMap_append, List.length_append] at hlength
    exact flatMap_toList_eq_nil_iff.mp (List.eq_nil_of_length_eq_zero (by omega))
  · exact fun h => (flatMap_wordsOf content h).symm

theorem infix_flatMap_of_mem {l : List String} {w : String} (hw : w ∈ l) :
    w.toList <:+: l.flatMap String.toList := by
  obtain ⟨l₁, l₂, rfl⟩ := List.append_of_mem hw
  exact ⟨l₁.flatMap String.toList, l₂.flatMap String.toList, by simp⟩

mutual

theorem spoken_or_unspoken_events : (p : Branch) → ∀ w ∈ wordsOf p.events,
    w.toList <:+: p.spoken.flatMap String.toList ∨
      ∃ content ∈ p.images, w ∈ unspokenIn true content
  | .container tag content => fun w hw => by
    rw [wordsOf_container] at hw
    rw [Branch.spoken, Branch.images]
    cases htag : tag.isImage with
    | true =>
      rcases List.mem_append.mp ((perm_wordsOf true content).mem_iff.mp hw) with hw | hw
      · refine .inl ?_
        rw [if_pos rfl, List.flatMap_singleton, String.toList_join]
        exact infix_flatMap_of_mem hw
      · exact .inr ⟨content, List.mem_cons_self, hw⟩
    | false => exact spoken_or_unspoken content w hw
  | .text s | .code s => fun w hw => .inl (infix_flatMap_of_mem hw)
  | .html _ | .inlineHtml _ | .softBreak | .hardBreak | .rule | .taskMarker _ | .unsupported =>
    fun w hw => by simp [wordsOf, Branch.events, Event.word?] at hw

/-- A word that is not spoken is one that an image does not say. -/
theorem spoken_or_unspoken : (ps : List Branch) → ∀ w ∈ wordsOf (eventsOf ps),
    w.toList <:+: (spokenIn ps).flatMap String.toList ∨
      ∃ content ∈ imagesIn ps, w ∈ unspokenIn true content
  | [] => fun w hw => by simp [eventsOf, wordsOf] at hw
  | p :: ps => fun w hw => by
    rw [wordsOf_eventsOf_cons, List.mem_append] at hw
    rw [spokenIn, imagesIn, List.flatMap_append]
    rcases hw with hw | hw
    · rcases spoken_or_unspoken_events p w hw with h | ⟨content, hc, h⟩
      · exact .inl (h.trans (List.prefix_append _ _).isInfix)
      · exact .inr ⟨content, List.mem_append_left _ hc, h⟩
    · rcases spoken_or_unspoken ps w hw with h | ⟨content, hc, h⟩
      · exact .inl (h.trans (List.suffix_append _ _).isInfix)
      · exact .inr ⟨content, List.mem_append_right _ hc, h⟩

end

/-! ## §3 Drawings -/

open Html

variable {inImage : Bool} {ps : List Branch} {ts : List Tree}

/-- Only an image opens a void element. -/
theorem tag_not_void {tag : Tag} (htag : tag.isImage = false) {inTableHead : Bool}
    {texts : List String} :
    ∀ e ∈ tag.elementsAround inTableHead texts, e.tag ∉ voidElements := by
  have hnames : ∀ name ∈ tag.elementNames inTableHead, name ∉ voidElements := by
    cases tag with
    | image => simp [Tag.isImage] at htag
    | heading level =>
      cases level <;> simp [Tag.elementNames, HeadingLevel.elementName, voidElements]
    | list start => cases start <;> simp [Tag.elementNames, voidElements]
    | tableCell => cases inTableHead <;> simp [Tag.elementNames, voidElements]
    | _ => simp [Tag.elementNames, voidElements]
  rw [← map_tag_elementsAround tag inTableHead texts] at hnames
  exact fun e he => hnames e.tag (List.mem_map_of_mem he)

theorem spoken_wrapAll {es : List Element} (hes : ∀ e ∈ es, e.tag ∉ voidElements)
    (ts : List Tree) : Tree.spoken (wrapAll es ts) = Tree.spoken ts := by
  induction es with
  | nil => rfl
  | cons e es ih =>
    obtain ⟨he, hes⟩ := List.forall_mem_cons.mp hes
    rw [wrapAll, Tree.spoken_element he, ih hes]

theorem alts_wrapAll {es : List Element} (hes : ∀ e ∈ es, e.tag ∉ voidElements)
    (ts : List Tree) : Tree.alts (wrapAll es ts) = Tree.alts ts := by
  induction es with
  | nil => rfl
  | cons e es ih =>
    obtain ⟨he, hes⟩ := List.forall_mem_cons.mp hes
    have himg : e.tag ≠ "img" := fun h => he (h ▸ by decide)
    rw [wrapAll, Tree.alts_node, ih hes, NodeKind.alts, if_neg himg, List.nil_append]

section image
variable (destination title alt : String)

theorem alts_imageElement :
    (NodeKind.element (imageElement destination title alt)).alts = [some alt] := by
  rw [NodeKind.alts, if_pos (tag_imageElement destination title alt), attribute?_imageElement]

theorem spoken_imageElement (n : NodeId) (ts : List Tree) :
    Tree.spoken [.node n (.element (imageElement destination title alt)) ts] = alt.toList := by
  have htag := tag_imageElement destination title alt
  have hclasses : (imageElement destination title alt).classes = [] := by
    unfold imageElement titled
    split <;> rfl
  have halt : (writtenAttributes (imageElement destination title alt)).lookup "alt" = some alt := by
    rw [writtenAttributes, hclasses]
    exact attribute?_imageElement destination title alt
  rw [Tree.spoken_void (by rw [htag]; decide), if_pos htag, halt, Option.getD_some]

end image

theorem alts_single {p : Branch} (hp : p.isContainer = false) (head inImage : Bool) :
    Tree.alts (p.trees head inImage) = [] ∧ p.images = [] := by
  have hcode : (NodeKind.element (.ofTag "code")).alts = [] := by decide +kernel
  cases p with
  | container => simp [Branch.isContainer] at hp
  | text s => exact ⟨by cases inImage <;> rfl, rfl⟩
  | code s => exact ⟨by rw [Branch.trees, Tree.alts_node, hcode]; rfl, rfl⟩
  | html | inlineHtml | softBreak | unsupported => exact ⟨rfl, rfl⟩
  | hardBreak | rule => exact ⟨by rw [Branch.trees]; decide +kernel, rfl⟩
  | taskMarker checked => exact ⟨by rw [Branch.trees]; cases checked <;> decide +kernel, rfl⟩

theorem spoken_single {p : Branch} (hp : p.isContainer = false) (head : Bool) :
    Tree.spoken (p.trees head false) = p.spoken.flatMap String.toList := by
  have hcode : (Element.ofTag "code").tag ∉ voidElements := by decide +kernel
  cases p with
  | container => simp [Branch.isContainer] at hp
  | code s => simp [Branch.trees, Branch.spoken, Tree.spoken_element hcode]
  | text | softBreak | html | inlineHtml => simp [Branch.trees, Branch.spoken]
  | unsupported => rfl
  | hardBreak | rule => rw [Branch.trees]; decide +kernel
  | taskMarker checked => rw [Branch.trees]; cases checked <;> decide +kernel

/-- Each image is described by the texts directly inside it. -/
theorem DrawnAs.alts (h : DrawnAs inImage ps ts) :
    Tree.alts ts = (imagesIn ps).map fun content => some (String.join (textsOf content)) := by
  induction h with
  | nil => rfl
  | @single inImage p ps us head hp _ ih =>
    obtain ⟨halts, himages⟩ := alts_single hp head inImage
    rw [Tree.alts_append, halts, ih, imagesIn, himages]
    rfl
  | @container _ tag content ps ts us head _ _ ihc ih =>
    rw [Tree.alts_append, ih, imagesIn, Branch.images, List.map_append, List.map_append, ← ihc]
    congr 1
    cases htag : tag.isImage with
    | true =>
      obtain ⟨destination, title, rfl⟩ : ∃ destination title, tag = .image destination title := by
        cases tag <;> simp_all [Tag.isImage]
      rw [Tag.elementsAround, wrapAll, Tree.alts_node, alts_imageElement]
      rfl
    | false => rw [alts_wrapAll (tag_not_void htag)]; rfl

/-- Outside of images, what is drawn is spoken. -/
theorem DrawnAs.spoken (h : DrawnAs inImage ps ts) (himage : inImage = false) :
    Tree.spoken ts = (spokenIn ps).flatMap String.toList := by
  induction h with
  | nil => rfl
  | @single inImage p ps us head hp _ ih =>
    subst himage
    rw [Tree.spoken_append, spoken_single hp, ih rfl, spokenIn, List.flatMap_append]
  | @container inImage tag content ps ts us head _ _ ihc ih =>
    subst himage
    rw [Tree.spoken_append, ih rfl, spokenIn, List.flatMap_append, Branch.spoken]
    congr 1
    cases htag : tag.isImage with
    | true =>
      obtain ⟨destination, title, rfl⟩ : ∃ destination title, tag = .image destination title := by
        cases tag <;> simp_all [Tag.isImage]
      rw [Tag.elementsAround, wrapAll, spoken_imageElement]
      simp
    | false =>
      have hinside : tag.holdsImage false = false := by
        cases tag <;> simp_all [Tag.isImage, Tag.holdsImage]
      rw [spoken_wrapAll (tag_not_void htag), ihc hinside]
      rfl

/-! ## §4 Fresh pages -/

/-- **Images.** A page is built from every well-nested stream of events. On it

* the images have for their `alt`s, in document order, the texts directly inside them, and so the
  descriptions of what is in them just if no word deeper inside has any characters;
* what is spoken of the HTML of its body are the words outside of images and these `alt`s, and so
  every word of the source, unless an image does not say it. -/
theorem alts_buildPage {events : List Event} {ps : List Branch} (hp : eventTree? events = some ps)
    (options : PageOptions) :
    ∃ d, buildPage events options = .ok d ∧
      d.alts d.body = (imagesIn ps).map (fun content => some (String.join (textsOf content))) ∧
      (d.alts d.body = (imagesIn ps).map (fun content => some (description content)) ↔
        ∀ content ∈ imagesIn ps, ∀ w ∈ unspokenIn true content, w = "") ∧
      d.spoken d.body = String.join (spokenIn ps) ∧
      ∀ w ∈ wordsOf events, w.toList <:+: (d.spoken d.body).toList ∨
        ∃ content ∈ imagesIn ps, w ∈ unspokenIn true content := by
  obtain ⟨d, hok, hd⟩ := buildPage_spec events options
  have hdrawn := drawnAs_sketch hp
  have hbody : (Element.ofTag "body").tag ∉ voidElements := by decide +kernel
  have halts : d.alts d.body =
      (imagesIn ps).map fun content => some (String.join (textsOf content)) := by
    have hnone : (NodeKind.element (.ofTag "body")).alts = [] := by decide +kernel
    rw [alts_eq hd.page.wellFormed hd.body, Tree.alts_node, hnone, hdrawn.alts, List.nil_append]
  have hspoken : (d.spoken d.body).toList = (spokenIn ps).flatMap String.toList := by
    rw [spoken_eq hd.body, String.toList_ofList, Tree.spoken_element hbody, hdrawn.spoken rfl]
  refine ⟨d, hok, halts, ?_, ?_, fun w hw => ?_⟩
  · rw [halts, List.map_inj_left]
    refine forall₂_congr fun content _ => ?_
    rw [Option.some.injEq, join_textsOf_eq_iff]
  · rw [← String.toList_inj, hspoken, String.toList_join]
  · rw [hspoken]
    exact spoken_or_unspoken ps w (by rwa [eventTree?_eq_some_iff.mp hp])

/-- An image of which nothing is lost, in a paragraph with some code. -/
def describedImage : List Branch :=
  [.container .paragraph
    [.text "see ", .code "x", .softBreak, .container (.image "/d" "") [.text "a ", .text "b"]]]

theorem alts_buildPage_describedImage :
    eventTree? (eventsOf describedImage) = some describedImage ∧
      ∃ d, buildPage (eventsOf describedImage) ⟨none⟩ = .ok d ∧
        d.alts d.body = [some "a b"] ∧ d.spoken d.body = "see x\na b" := by
  have hp : eventTree? (eventsOf describedImage) = some describedImage := rfl
  obtain ⟨d, hok, halts, -, hspoken, -⟩ := alts_buildPage hp ⟨none⟩
  exact ⟨hp, d, hok, halts.trans (by decide +kernel), hspoken.trans (by decide +kernel)⟩

/-- An emphasis in the description of an image: its text is in the document, below the `img`, but
neither in the `alt` nor in the HTML of the body. -/
theorem alts_unspoken :
    let events := Markdown.read "![a *b* c](/d)\n"
    (eventTree? events).map (fun ps => (imagesIn ps).map description) = some ["a b c"] ∧
      (buildPage events ⟨none⟩).toOption.map (fun d =>
        (d.alts d.body, d.textContent d.body, d.outerHtml d.body)) =
      some ([some "a  c"], "b", "<body><p><img src=\"/d\" alt=\"a  c\"></p></body>") := by
  decide +kernel

end CopyControl.Markdown
