import CopyControl.Text.Blank
import CopyControl.Proofs.Document.Shape

/-!
What can be read back from the HTML of a subtree.

HTML does not say where one text node ends and the next begins, nor which class is which when a
class holds a blank, and the children of a void element are not in it at all. `Tree.normalForm` is a
subtree with just these things forgotten, and `outerHtml_eq_iff` says that nothing else is lost: two
plain subtrees have the same HTML exactly if they have the same normal form.

The HTML of a subtree is the HTML of its normal form (`Tree.htmls_normalForms`). That one is read
from left to right, each part up to a character that cannot occur in it: a name ends at the first
character that is no name character, an attribute value at the first quote, a text at the first
`<`, and the content of an element at the first `</` (`Markup.AllSettled.read`).

* §1 names
* §2 normal forms
* §3 reading characters back
* §4 reading normal forms back
* §5 documents
-/

namespace CopyControl

open Html

/-! ## §1 Names -/

namespace Html

/-- Characters that neither separate nor delimit in a tag. -/
def isNameChar (c : Char) : Bool :=
  !(Text.isWhiteSpace c || ['"', '\'', '<', '>', '/', '='].contains c)

def isName (s : String) : Bool :=
  s != "" && s.toList.all isNameChar

theorem isName_iff {s : String} :
    isName s = true ↔ s.toList ≠ [] ∧ ∀ c ∈ s.toList, isNameChar c = true := by
  simp [isName]

end Html

/-- Not raw, and tag and attribute names are names. -/
def NodeKind.isPlain : NodeKind → Bool
  | .text _ => true
  | .raw _ => false
  | .element e => isName e.tag && e.attributes.all fun a => isName a.1

mutual

/-- Every node of the tree is plain. -/
def Tree.isPlain : Tree → Bool
  | .node _ kind children => kind.isPlain && Tree.allPlain children

def Tree.allPlain : List Tree → Bool
  | [] => true
  | t :: ts => t.isPlain && Tree.allPlain ts

end

/-! ## §2 Normal forms -/

/-- What HTML can say: text, raw markup, and elements with their attributes as written. -/
inductive Markup where
  | text (s : String)
  | raw (markup : String)
  | element (tag : String) (attributes : List (String × String)) (content : List Markup)
deriving Repr, Inhabited

namespace Markup

/-- In front of other markup, empty text is nothing and text in front of text is one text. -/
def prepend : Markup → List Markup → List Markup
  | .text s, rest =>
    if s = "" then rest
    else
      match rest with
      | .text s' :: rest => .text (s ++ s') :: rest
      | rest => .text s :: rest
  | m, rest => m :: rest

mutual

def html : Markup → List Char
  | .text s => escapeText s.toList
  | .raw markup => markup.toList
  | .element tag attributes content =>
    '<' :: tag.toList ++ attributes.flatMap (fun (n, v) => writtenPair n v) ++
      '>' :: (if voidElements.contains tag then [] else htmls content ++ endTag tag)

def htmls : List Markup → List Char
  | [] => []
  | m :: ms => m.html ++ htmls ms

end

theorem htmls_prepend (m : Markup) (ms : List Markup) :
    htmls (m.prepend ms) = m.html ++ htmls ms := by
  cases m with
  | raw markup => rfl
  | element tag attributes content => rfl
  | text s =>
    rcases eq_or_ne s "" with rfl | hs
    · rfl
    · cases ms with
      | nil => simp [prepend, hs, htmls]
      | cons m ms => cases m <;> simp [prepend, hs, htmls, html, escapeText]

end Markup

mutual

/-- A tree as markup: its handles are forgotten, and so is what is below a void element. -/
def Tree.markup : Tree → Markup
  | .node _ kind children =>
    match kind with
    | .text s => .text s
    | .raw markup => .raw markup
    | .element e =>
      .element e.tag (writtenAttributes e)
        (if voidElements.contains e.tag then [] else Tree.normalForms children)

/-- Trees as markup, without empty text and with adjacent text joined. -/
def Tree.normalForms : List Tree → List Markup
  | [] => []
  | t :: ts => t.markup.prepend (Tree.normalForms ts)

end

/-- The normal form of a subtree: empty if it is an empty text. -/
def Tree.normalForm (t : Tree) : List Markup :=
  Tree.normalForms [t]

namespace Tree

mutual

theorem html_markup : (t : Tree) → t.markup.html = t.html
  | .node _ kind children => by
    cases kind with
    | text s => rfl
    | raw markup => rfl
    | element e =>
      rw [markup, Markup.html, html]
      split
      · simp [startTag]
      · simp [startTag, htmls_normalForms children]

theorem htmls_normalForms : (ts : List Tree) → Markup.htmls (normalForms ts) = htmls ts
  | [] => rfl
  | t :: ts => by
    rw [normalForms, Markup.htmls_prepend, html_markup t, htmls_normalForms ts, htmls]

end

theorem htmls_normalForm (t : Tree) : Markup.htmls t.normalForm = t.html := by
  rw [normalForm, htmls_normalForms, htmls, htmls, List.append_nil]

end Tree

namespace Markup

def isText : Markup → Bool
  | .text _ => true
  | _ => false

mutual

/-- Markup that can be read back when something follows that is no text. -/
def Settled : Markup → Prop
  | .text s => s ≠ ""
  | .raw _ => False
  | .element tag attributes content =>
    isName tag = true ∧ (∀ a ∈ attributes, isName a.1 = true) ∧
      (voidElements.contains tag = true → content = []) ∧ AllSettled content

/-- Settled throughout, and nowhere text next to text. -/
def AllSettled : List Markup → Prop
  | [] => True
  | m :: ms => m.Settled ∧ (m.isText = true → ∀ m' ∈ ms.head?, m'.isText = false) ∧ AllSettled ms

end

theorem AllSettled.prepend_text {ms : List Markup} (h : AllSettled ms) (s : String) :
    AllSettled ((text s).prepend ms) := by
  rcases eq_or_ne s "" with rfl | hs
  · exact h
  · cases ms with
    | nil => simp [prepend, hs, AllSettled, Settled]
    | cons m ms =>
      cases m with
      | text s' =>
        obtain ⟨-, hnext, hms⟩ := h
        simpa [prepend, hs, AllSettled, Settled] using ⟨hnext, hms⟩
      | raw markup => exact h.1.elim
      | element tag as content => simpa [prepend, hs, AllSettled, Settled, isText] using h

end Markup

namespace Tree

/-- The normal form of plain trees is settled. -/
theorem allSettled_normalForms :
    (ts : List Tree) → allPlain ts = true → Markup.AllSettled (normalForms ts)
  | [], _ => trivial
  | .node _ kind children :: ts, h => by
    obtain ⟨⟨hk, hc⟩, hts⟩ :
        (kind.isPlain = true ∧ allPlain children = true) ∧ allPlain ts = true := by
      simpa [allPlain, isPlain] using h
    have ih := allSettled_normalForms ts hts
    rw [normalForms]
    cases kind with
    | raw m => simp [NodeKind.isPlain] at hk
    | text s => exact ih.prepend_text s
    | element e =>
      obtain ⟨htag, hattr⟩ : isName e.tag = true ∧ ∀ a ∈ e.attributes, isName a.1 = true := by
        simpa [NodeKind.isPlain] using hk
      refine ⟨⟨htag, fun a ha => ?_, fun hv => if_pos hv, ?_⟩, nofun, ih⟩
      · rcases List.mem_append.mp ha with ha | ha
        · split at ha
          · simp at ha
          · rw [List.mem_singleton.mp ha]
            exact (by decide : isName "class" = true)
        · exact hattr a ha
      · split
        · trivial
        · exact allSettled_normalForms children hc

end Tree

/-! ## §3 Reading characters back -/

namespace Html

/-- A way of writing characters in which no character starts with `stop`, and in which each is known
from how it is written, whatever comes after it. -/
structure Readable (write : Char → List Char) (stop : Char) : Prop where
  starts : ∀ c, ∃ x w, write c = x :: w ∧ x ≠ stop
  inj : ∀ c c' r r', write c ++ r = write c' ++ r' → c = c' ∧ r = r'

/-- Characters up to a stop can be read back. -/
theorem Readable.read {write : Char → List Char} {stop : Char} (h : Readable write stop)
    {s s' r r' : List Char} (hr : ∀ c ∈ r.head?, c = stop) (hr' : ∀ c ∈ r'.head?, c = stop)
    (he : s.flatMap write ++ r = s'.flatMap write ++ r') : s = s' ∧ r = r' := by
  -- a character of one text cannot be where the other has its end
  have hend : ∀ {c s r r'}, (∀ c ∈ r.head?, c = stop) → r ≠ (c :: s).flatMap write ++ r' := by
    rintro c s r r' hr rfl
    obtain ⟨x, w, hx, hne⟩ := h.starts c
    exact hne (hr x (by simp [hx]))
  induction s generalizing s' with
  | nil =>
    cases s' with
    | nil => exact ⟨rfl, he⟩
    | cons c' s' => exact absurd he (hend hr)
  | cons c s ih =>
    cases s' with
    | nil => exact absurd he.symm (hend hr')
    | cons c' s' =>
      rw [List.flatMap_cons, List.flatMap_cons, List.append_assoc, List.append_assoc] at he
      obtain ⟨rfl, hrest⟩ := h.inj _ _ _ _ he
      obtain ⟨rfl, rfl⟩ := ih hrest
      exact ⟨rfl, rfl⟩

theorem readable_text : Readable escapeTextChar '<' where
  starts c := by
    unfold escapeTextChar
    split
    · exact ⟨'&', _, rfl, by decide⟩
    · exact ⟨'&', _, rfl, by decide⟩
    · exact ⟨'&', _, rfl, by decide⟩
    · next hlt _ => exact ⟨c, [], rfl, hlt⟩
  inj c c' r r' h := by
    unfold escapeTextChar at h
    split at h <;> split at h <;> simp at h <;> grind

theorem readable_attribute : Readable escapeAttributeChar '"' where
  starts c := by
    unfold escapeAttributeChar
    split
    · exact ⟨'&', _, rfl, by decide⟩
    · exact ⟨'&', _, rfl, by decide⟩
    · exact ⟨'&', _, rfl, by decide⟩
    · next hq _ => exact ⟨c, [], rfl, hq⟩
  inj c c' r r' h := by
    unfold escapeAttributeChar at h
    split at h <;> split at h <;> simp at h <;> grind

/-- A name ends where the name characters end. -/
theorem read_name {n n' r r' : List Char} (hn : ∀ c ∈ n, isNameChar c = true)
    (hn' : ∀ c ∈ n', isNameChar c = true) (hr : ∀ c ∈ r.head?, isNameChar c = false)
    (hr' : ∀ c ∈ r'.head?, isNameChar c = false) (he : n ++ r = n' ++ r') : n = n' ∧ r = r' := by
  have htake : ∀ {n r : List Char}, (∀ c ∈ n, isNameChar c = true) →
      (∀ c ∈ r.head?, isNameChar c = false) → (n ++ r).takeWhile isNameChar = n := by
    intro n r hn hr
    rw [List.takeWhile_append_of_pos hn]
    cases r with
    | nil => simp
    | cons c r => simp [hr c rfl]
  have hnn : n = n' := by rw [← htake hn hr, he, htake hn' hr']
  subst hnn
  exact ⟨rfl, List.append_cancel_left he⟩

/-- An attribute value ends at the first quote. -/
theorem read_value {s s' r r' : List Char}
    (he : escapeAttribute s ++ '"' :: r = escapeAttribute s' ++ '"' :: r') : s = s' ∧ r = r' := by
  obtain ⟨hs, hr⟩ := readable_attribute.read (by simp) (by simp) he
  exact ⟨hs, List.tail_eq_of_cons_eq hr⟩

theorem writtenPair_append (n v : String) (r : List Char) :
    writtenPair n v ++ r =
      ' ' :: (n.toList ++ '=' :: '"' :: (escapeAttribute v.toList ++ '"' :: r)) := by
  simp [writtenPair]

theorem read_attributes {as as' : List (String × String)} {r r' : List Char}
    (ha : ∀ a ∈ as, isName a.1 = true) (ha' : ∀ a ∈ as', isName a.1 = true)
    (he : as.flatMap (fun (n, v) => writtenPair n v) ++ '>' :: r =
      as'.flatMap (fun (n, v) => writtenPair n v) ++ '>' :: r') : as = as' ∧ r = r' := by
  induction as generalizing as' with
  | nil =>
    cases as' with
    | nil => exact ⟨rfl, List.tail_eq_of_cons_eq he⟩
    | cons a as' => simp [writtenPair] at he
  | cons a as ih =>
    cases as' with
    | nil => simp [writtenPair] at he
    | cons a' as' =>
      obtain ⟨n, v⟩ := a
      obtain ⟨n', v'⟩ := a'
      have hn := (isName_iff.mp (ha _ List.mem_cons_self)).2
      have hn' := (isName_iff.mp (ha' _ List.mem_cons_self)).2
      rw [List.flatMap_cons, List.flatMap_cons, List.append_assoc, List.append_assoc,
        writtenPair_append, writtenPair_append] at he
      obtain ⟨hname, he⟩ :=
        read_name hn hn' (by simp; decide) (by simp; decide) (List.tail_eq_of_cons_eq he)
      obtain ⟨hvalue, he⟩ :=
        read_value (List.tail_eq_of_cons_eq (List.tail_eq_of_cons_eq he))
      obtain ⟨rfl, rfl⟩ := ih (fun a h => ha a (List.mem_cons_of_mem _ h))
        (fun a h => ha' a (List.mem_cons_of_mem _ h)) he
      obtain rfl : n = n' := String.toList_inj.mp hname
      obtain rfl : v = v' := String.toList_inj.mp hvalue
      exact ⟨rfl, rfl⟩

end Html

/-! ## §4 Reading normal forms back -/

namespace Markup

/-- What can come after the content of an element: nothing, or an end tag. -/
def Closes (r : List Char) : Prop :=
  r = [] ∨ ∃ w, r = '<' :: '/' :: w

theorem closes_endTag (tag : String) (r : List Char) : Closes (endTag tag ++ r) :=
  .inr ⟨_, rfl⟩

theorem Closes.head {r : List Char} (h : Closes r) : ∀ c ∈ r.head?, c = '<' := by
  rcases h with rfl | ⟨w, rfl⟩ <;> simp

/-- The characters of an element up to those of its tag. -/
theorem Settled.html_element {tag : String} {as : List (String × String)} {content : List Markup}
    (h : (element tag as content).Settled) :
    ∃ c w, (element tag as content).html = '<' :: c :: w ∧ c ≠ '/' := by
  obtain ⟨hne, hchar⟩ := isName_iff.mp h.1
  obtain ⟨c, w, hw⟩ := List.exists_cons_of_ne_nil hne
  refine ⟨c, _, by rw [html, hw]; rfl, ?_⟩
  rintro rfl
  have := hchar '/' (by simp [hw])
  exact absurd this (by decide)

theorem Settled.html_text {s : String} (h : (text s).Settled) :
    ∃ c w, (text s).html = c :: w ∧ c ≠ '<' := by
  obtain ⟨c, cs, hc⟩ := List.exists_cons_of_ne_nil (mt String.toList_eq_nil_iff.mp h)
  obtain ⟨x, w, hx, hne⟩ := readable_text.starts c
  exact ⟨x, w ++ cs.flatMap escapeTextChar, by simp [html, escapeText, hc, hx], hne⟩

/-- Settled markup is not taken for the end of the content it is in. -/
theorem Settled.not_closes {m : Markup} (h : m.Settled) (r : List Char) :
    ¬ Closes (m.html ++ r) := by
  cases m with
  | raw markup => exact h.elim
  | text s =>
    obtain ⟨c, w, hw, hne⟩ := h.html_text
    rintro (hr | ⟨v, hr⟩) <;> simp_all
  | element tag as content =>
    obtain ⟨c, w, hw, hne⟩ := h.html_element
    rintro (hr | ⟨v, hr⟩) <;> simp_all

/-- What comes after a text starts like a tag. -/
theorem AllSettled.head {ms : List Markup} (h : AllSettled ms)
    (ht : ∀ m ∈ ms.head?, m.isText = false) {r : List Char} (hr : Closes r) :
    ∀ c ∈ (htmls ms ++ r).head?, c = '<' := by
  cases ms with
  | nil => exact hr.head
  | cons m ms =>
    cases m with
    | text s => simp [isText] at ht
    | raw markup => exact h.1.elim
    | element tag as content =>
      obtain ⟨c, w, hw, -⟩ := h.1.html_element
      simp [htmls, hw]

/-- An element's tag and attributes can be read back. -/
theorem Settled.read_tag {tag tag' : String} {as as' : List (String × String)}
    {content content' : List Markup} (h : (element tag as content).Settled)
    (h' : (element tag' as' content').Settled) {r r' : List Char}
    (he : (element tag as content).html ++ r = (element tag' as' content').html ++ r') :
    tag = tag' ∧ as = as' ∧
      (if voidElements.contains tag then [] else htmls content ++ endTag tag) ++ r =
        (if voidElements.contains tag' then [] else htmls content' ++ endTag tag') ++ r' := by
  have hstop : ∀ (as : List (String × String)) (w : List Char),
      ∀ c ∈ (as.flatMap (fun (n, v) => writtenPair n v) ++ '>' :: w).head?,
        isNameChar c = false := by
    intro as w
    cases as with
    | nil => simp; decide
    | cons a as => simp [writtenPair]; decide
  simp only [html, List.cons_append, List.append_assoc, List.cons.injEq, true_and] at he
  obtain ⟨htag, he⟩ :=
    read_name (isName_iff.mp h.1).2 (isName_iff.mp h'.1).2 (hstop _ _) (hstop _ _) he
  obtain ⟨has, he⟩ := read_attributes h.2.1 h'.2.1 he
  exact ⟨String.toList_inj.mp htag, has, he⟩

/-- Settled markup can be read back from its HTML, up to where the element that it is in ends. -/
theorem AllSettled.read : (ms : List Markup) → ∀ {ms' : List Markup} {r r' : List Char},
    AllSettled ms → AllSettled ms' → Closes r → Closes r' →
      htmls ms ++ r = htmls ms' ++ r' → ms = ms' ∧ r = r'
  | [], [], _, _, _, _, _, _, he => ⟨rfl, he⟩
  | [], m' :: ms', r, r', _, h', hr, _, he => by
    rw [htmls, htmls, List.append_assoc, List.nil_append] at he
    exact absurd (he ▸ hr) (h'.1.not_closes _)
  | m :: ms, [], r, r', h, _, _, hr', he => by
    rw [htmls, htmls, List.append_assoc, List.nil_append] at he
    exact absurd (he ▸ hr') (h.1.not_closes _)
  | .raw _ :: _, _ :: _, _, _, h, _, _, _, _ => h.1.elim
  | _ :: _, .raw _ :: _, _, _, _, h', _, _, _ => h'.1.elim
  | .text s :: ms, .text s' :: ms', r, r', h, h', hr, hr', he => by
    rw [htmls, htmls, List.append_assoc, List.append_assoc] at he
    obtain ⟨hs, he⟩ :=
      readable_text.read (h.2.2.head (h.2.1 rfl) hr) (h'.2.2.head (h'.2.1 rfl) hr') he
    obtain ⟨rfl, rfl⟩ := read ms h.2.2 h'.2.2 hr hr' he
    exact ⟨by rw [String.toList_inj.mp hs], rfl⟩
  | .text s :: ms, .element tag as content :: ms', r, r', h, h', _, _, he => by
    obtain ⟨c, w, hw, hne⟩ := h.1.html_text
    obtain ⟨c', w', hw', -⟩ := h'.1.html_element
    simp [htmls, hw, hw', hne] at he
  | .element tag as content :: ms, .text s :: ms', r, r', h, h', _, _, he => by
    obtain ⟨c, w, hw, -⟩ := h.1.html_element
    obtain ⟨c', w', hw', hne⟩ := h'.1.html_text
    simp [htmls, hw, hw', hne.symm] at he
  | .element tag as content :: ms, .element tag' as' content' :: ms', r, r', h, h', hr, hr',
    he => by
    rw [htmls, htmls, List.append_assoc, List.append_assoc] at he
    obtain ⟨rfl, rfl, hbody⟩ := h.1.read_tag h'.1 he
    split at hbody
    · next hv =>
      obtain rfl : content = [] := h.1.2.2.1 hv
      obtain rfl : content' = [] := h'.1.2.2.1 hv
      obtain ⟨rfl, rfl⟩ := read ms h.2.2 h'.2.2 hr hr' hbody
      exact ⟨rfl, rfl⟩
    · rw [List.append_assoc, List.append_assoc] at hbody
      obtain ⟨rfl, hrest⟩ :=
        read content h.1.2.2.2 h'.1.2.2.2 (closes_endTag _ _) (closes_endTag _ _) hbody
      obtain ⟨rfl, rfl⟩ := read ms h.2.2 h'.2.2 hr hr' (List.append_cancel_left hrest)
      exact ⟨rfl, rfl⟩

end Markup

/-! ## §5 Documents -/

namespace Document

/-- The normal form of the subtree at a node. -/
def normalForm (d : Document) (x : NodeId) : List Markup :=
  ((d.tree? x).map Tree.normalForm).getD []

/-- Whether every node at or below a node is plain. -/
def isPlain (d : Document) (x : NodeId) : Bool :=
  (d.tree? x).all Tree.isPlain

theorem WellFormed.isPlain_iff {d : Document} (hw : d.WellFormed) {x : NodeId}
    (hx : d.contains x = true) :
    d.isPlain x = true ↔ ∀ y ∈ d.descendants x, ∀ k, d.kind? y = some k → k.isPlain = true := by
  induction x using hw.children_induction with
  | h x ih =>
    obtain ⟨node, hnode⟩ := contains_iff.mp hx
    have hch : d.children x = node.children := by simp [children, hnode]
    have hkind : d.kind? x = some node.kind := by simp [kind?, hnode]
    have hall : Tree.allPlain (node.children.filterMap d.tree?) = true ↔
        ∀ c ∈ d.children x, d.isPlain c = true := by
      rw [hch]
      generalize node.children = cs
      induction cs with
      | nil => simp [Tree.allPlain]
      | cons c cs ihc =>
        cases hc : d.tree? c <;> simp [Tree.allPlain, isPlain, hc, ihc]
    rw [isPlain, tree?_eq hw hnode, Option.all_some, Tree.isPlain, Bool.and_eq_true, hall,
      hw.descendants_eq hx]
    simp only [List.forall_mem_cons, hkind, Option.some.injEq, forall_eq', List.mem_flatMap,
      forall_exists_index, and_imp]
    refine and_congr_right fun _ => ⟨fun h y c hc hy => ?_, fun h c hc => ?_⟩
    · exact (ih c hc (hw.contains_of_child hc)).mp (h c hc) y hy
    · exact (ih c hc (hw.contains_of_child hc)).mpr fun y hy => h y c hc hy

theorem outerHtml_eq_htmls (d : Document) (x : NodeId) :
    d.outerHtml x = .ofList (Markup.htmls (d.normalForm x)) := by
  rw [outerHtml, normalForm]
  cases d.tree? x with
  | none => rfl
  | some t => simp [Tree.htmls_normalForm]

theorem allSettled_normalForm {d : Document} {x : NodeId} (h : d.isPlain x = true) :
    Markup.AllSettled (d.normalForm x) := by
  rw [isPlain] at h
  rw [normalForm]
  cases ht : d.tree? x with
  | none => trivial
  | some t =>
    refine Tree.allSettled_normalForms [t] ?_
    rw [ht, Option.all_some] at h
    simp [Tree.allPlain, h]

/-- HTML loses what the normal form forgets, and nothing else. No text and no attribute value is
taken for markup, since two subtrees that differ in such a way have different normal forms. -/
theorem outerHtml_eq_iff {d d' : Document} {a b : NodeId} (ha : d.isPlain a = true)
    (hb : d'.isPlain b = true) :
    d.outerHtml a = d'.outerHtml b ↔ d.normalForm a = d'.normalForm b := by
  rw [outerHtml_eq_htmls, outerHtml_eq_htmls]
  constructor
  · intro h
    have hhtml := String.ofList_injective h
    exact (Markup.AllSettled.read _ (allSettled_normalForm ha) (allSettled_normalForm hb) (.inl rfl)
      (.inl rfl) (by rw [hhtml])).1
  · intro h
    rw [h]

/-- A paragraph whose text is in two nodes, with a line break that something is below. -/
def brokenText : Document :=
  Operation.runAll
    [.createElement "p", .addClass ⟨3, 0⟩ "a", .addClass ⟨3, 0⟩ "b", .appendText ⟨3, 0⟩ "1 <",
      .appendText ⟨3, 0⟩ " 2", .createElement "br", .appendText ⟨6, 0⟩ "lost",
      .appendChild ⟨3, 0⟩ ⟨6, 0⟩] new

/-- The paragraph with its text in one node and its classes in an attribute. -/
def joinedText : Document :=
  Operation.runAll
    [.createElement "p", .setAttribute ⟨3, 0⟩ "class" "a b", .appendText ⟨3, 0⟩ "1 < 2",
      .createElement "br", .appendChild ⟨3, 0⟩ ⟨5, 0⟩] new

theorem outerHtml_eq_iff_joinedText :
    brokenText.isPlain ⟨3, 0⟩ = true ∧ joinedText.isPlain ⟨3, 0⟩ = true ∧
      (brokenText.outerHtml ⟨3, 0⟩ = joinedText.outerHtml ⟨3, 0⟩ ↔
        brokenText.normalForm ⟨3, 0⟩ = joinedText.normalForm ⟨3, 0⟩) := by
  have hb : brokenText.isPlain ⟨3, 0⟩ = true := by decide +kernel
  have hj : joinedText.isPlain ⟨3, 0⟩ = true := by decide +kernel
  exact ⟨hb, hj, outerHtml_eq_iff hb hj⟩

end Document

end CopyControl
