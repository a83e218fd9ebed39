import CopyControl.Proofs.Files.Places
import Mathlib.Data.List.Induction

/-!
Where a path leads to when its last name is given another extension.

A path that a file can be written at is cut in two: the name of the file, and what stands in front
of it (`EndsIn`, `exists_endsIn`). A new extension is a matter of the name alone
(`EndsIn.withExtension`). So the new path leads into the same directory, and there two names are two
places (`eq_of_target`): with another extension a path leads to the same file only if it had that
extension already (`target_withExtension_iff_hasExtension`).

* §1 paths that end in the name of a file
* §2 their extensions
* §3 the places they lead to
-/

namespace CopyControl

namespace FilePath

variable {p q : FilePath} {front name name' : List Char} {e e' : String}

/-! ## §1 Paths that end in the name of a file -/

/-- What stands in front of a name: nothing, or something that ends in a slash. -/
def IsFront (front : List Char) : Prop :=
  front = [] ∨ ∃ rest, front = rest ++ ['/']

/-- The path ends in the name of a file, and `front` is all that stands before it. -/
structure EndsIn (p : FilePath) (front name : List Char) : Prop where
  toList : p.text.toList = front ++ name
  front : IsFront front
  noSlash : '/' ∉ name
  fileName : isFileName name = true

theorem EndsIn.ne_nil (h : p.EndsIn front name) : name ≠ [] := fun hnil => by
  simpa [hnil, isFileName] using h.fileName

theorem EndsIn.ext (h : p.EndsIn front name) (h' : q.EndsIn front name) : p = q := by
  cases p with | mk t => cases q with | mk u =>
  exact congrArg FilePath.mk (String.toList_inj.mp (h.toList.trans h'.toList.symm))

/-- The names of a path are those of its front and then its last name. -/
theorem names_append (hfront : IsFront front) (hslash : '/' ∉ name) (hne : name ≠ []) :
    names ⟨.ofList (front ++ name)⟩ = names ⟨.ofList front⟩ ++ [.ofList name] := by
  have hname : (!name.isEmpty) = true := by simpa using hne
  obtain rfl | ⟨rest, rfl⟩ := hfront
  · simp [names, List.splitOn_eq_singleton hslash, hname]
  · simp [names, List.splitOn_eq_singleton hslash, hname, List.splitOn_append_cons_self]

theorem EndsIn.names_eq (h : p.EndsIn front name) :
    p.names = names ⟨.ofList front⟩ ++ [.ofList name] := by
  rw [← names_append h.front h.noSlash h.ne_nil, ← h.toList, String.ofList_toList]

theorem EndsIn.isAbsolute_eq (h : p.EndsIn front name) :
    p.isAbsolute = decide (front.head? = some '/') := by
  rw [isAbsolute, h.toList]
  cases front with
  | nil =>
    obtain ⟨c, cs, rfl⟩ := List.exists_cons_of_ne_nil h.ne_nil
    have hc : c ≠ '/' := fun hc => h.noSlash (hc ▸ List.mem_cons_self)
    simp [hc]
  | cons c cs => rfl

/-- Every text is cut so, behind its last slash. -/
theorem exists_front (cs : List Char) :
    ∃ front name, cs = front ++ name ∧ IsFront front ∧ '/' ∉ name := by
  induction cs using List.reverseRecOn with
  | nil => exact ⟨[], [], rfl, .inl rfl, List.not_mem_nil⟩
  | append_singleton cs c ih =>
    by_cases hc : c = '/'
    · exact ⟨cs ++ [c], [], by simp, .inr ⟨cs, by rw [hc]⟩, List.not_mem_nil⟩
    · obtain ⟨front, name, rfl, hfront, hslash⟩ := ih
      refine ⟨front, name ++ [c], by simp, hfront, fun h => ?_⟩
      obtain h | h := List.mem_append.mp h
      · exact hslash h
      · exact hc (List.mem_singleton.mp h).symm

/-- A path that does not end in a slash ends in its last name. -/
theorem endsIn_of_getLast? {last : String} (hlast : p.names.getLast? = some last)
    (hfile : isFileName last.toList = true) (hslash : p.endsInSlash = false) :
    ∃ front, p.EndsIn front last.toList := by
  obtain ⟨front, name, htext, hfront, hname⟩ := exists_front p.text.toList
  have hne : name ≠ [] := by
    rintro rfl
    obtain rfl | ⟨rest, rfl⟩ := hfront
    · simp [names, htext] at hlast
    · simp [endsInSlash, htext] at hslash
  have hnames : p.names = names ⟨.ofList front⟩ ++ [.ofList name] := by
    rw [← names_append hfront hname hne, ← htext, String.ofList_toList]
  rw [hnames, List.getLast?_concat, Option.some.injEq] at hlast
  subst hlast
  rw [String.toList_ofList] at hfile ⊢
  exact ⟨front, htext, hfront, hname, hfile⟩

/-! ## §2 Their extensions -/

/-- An extension as it is added to a name. -/
def IsExtension (e : String) : Prop :=
  e ≠ "" ∧ '/' ∉ e.toList ∧ '.' ∉ e.toList

instance (e : String) : Decidable (IsExtension e) :=
  inferInstanceAs (Decidable (_ ∧ _ ∧ _))

/-- A name without its extension. -/
def stem (name : List Char) : List Char :=
  (stemBackward name.reverse).reverse

/-- A stem is the beginning of a name. -/
theorem isPrefix_stem (name : List Char) : stem name <+: name := by
  rw [stem, ← List.reverse_suffix, List.reverse_reverse]
  unfold stemBackward
  split
  · rename_i c stem heq
    exact ((List.suffix_cons '.' _).trans (heq ▸ List.dropWhile_suffix _))
  · exact List.suffix_rfl

theorem stem_ne_nil (hne : name ≠ []) : stem name ≠ [] := by
  rw [stem, Ne, List.reverse_eq_nil_iff]
  unfold stemBackward
  split
  · exact List.cons_ne_nil _ _
  · simpa using hne

/-- What an extension is added to is the stem of the name that comes of it. -/
theorem stem_append (he : '.' ∉ e.toList) (hne : name ≠ []) :
    stem (name ++ '.' :: e.toList) = name := by
  obtain ⟨c, cs, hcs⟩ := List.exists_cons_of_ne_nil (mt List.reverse_eq_nil_iff.mp hne)
  have hdrop : (e.toList.reverse ++ '.' :: name.reverse).dropWhile (· != '.') =
      '.' :: c :: cs := by
    rw [List.dropWhile_append_of_pos fun a ha => ?_, hcs]
    · rfl
    · exact bne_iff_ne.mpr fun h => he (h ▸ List.mem_reverse.mp ha)
  rw [stem, List.reverse_append, List.reverse_cons, List.append_assoc, List.singleton_append,
    stemBackward, hdrop]
  show (c :: cs).reverse = _
  rw [← hcs, List.reverse_reverse]

/-- A path that ends in a name has nothing to be trimmed. -/
theorem trimBackward_reverse (hslash : '/' ∉ name) (hfile : isFileName name = true) :
    trimBackward (front ++ name).reverse = (front ++ name).reverse := by
  rw [List.reverse_append]
  obtain ⟨c, cs, hcs⟩ : ∃ c cs, name.reverse = c :: cs :=
    List.exists_cons_of_ne_nil fun h => by
      simp [List.reverse_eq_nil_iff.mp h, isFileName] at hfile
  have hno : ∀ a ∈ c :: cs, a ≠ '/' := fun a ha h =>
    hslash (List.mem_reverse.mp (hcs ▸ (h ▸ ha : '/' ∈ c :: cs)))
  have hdot : c = '.' → cs ≠ [] := fun hc hnil => by
    have hname : name = ['.'] := by rw [← List.reverse_inj, hcs, hc, hnil]; rfl
    simp [hname, isFileName, here] at hfile
  rw [hcs]
  unfold trimBackward
  split
  · rename_i heq
    exact absurd (List.cons.inj heq).1 (hno c List.mem_cons_self)
  · rename_i rest heq
    obtain ⟨hc, heq⟩ := List.cons.inj heq
    obtain ⟨d, ds, rfl⟩ := List.exists_cons_of_ne_nil (hdot hc)
    exact absurd (List.cons.inj heq).1 (hno d (by simp))
  · rfl

theorem EndsIn.withExtension_eq (h : p.EndsIn front name) (e : String) :
    p.withExtension e = ⟨.ofList (front ++ (stem name ++ '.' :: e.toList))⟩ := by
  have htake : (name.reverse ++ front.reverse).takeWhile (· != '/') = name.reverse := by
    rw [List.takeWhile_append_of_pos fun a ha => ?_]
    · obtain hnil | ⟨rest, hrest⟩ := h.front
      · simp [hnil]
      · simp [hrest]
    · exact bne_iff_ne.mpr fun hc => h.noSlash (hc ▸ List.mem_reverse.mp ha)
  rw [FilePath.withExtension, h.toList,
    trimBackward_reverse h.noSlash h.fileName, List.reverse_append]
  dsimp only
  rw [htake, List.reverse_reverse, if_pos h.fileName, List.drop_left]
  simp [stem]

/-- With another extension a path has the same front. -/
theorem EndsIn.withExtension (h : p.EndsIn front name) (he : IsExtension e) :
    (p.withExtension e).EndsIn front (stem name ++ '.' :: e.toList) where
  toList := by rw [h.withExtension_eq, String.toList_ofList]
  front := h.front
  noSlash hmem := by
    obtain hmem | hmem := List.mem_append.mp hmem
    · exact h.noSlash ((isPrefix_stem name).subset hmem)
    · obtain hmem | hmem := List.mem_cons.mp hmem
      · cases hmem
      · exact he.2.1 hmem
  fileName := by
    obtain ⟨c, cs, hcs⟩ := List.exists_cons_of_ne_nil (stem_ne_nil h.ne_nil)
    have hlast : (stem name ++ '.' :: e.toList).getLast? ≠ some '.' := fun hdot => by
      have hne : e.toList ≠ [] := by simpa using he.1
      rw [List.getLast?_append_of_ne_nil _ (List.cons_ne_nil _ _),
        List.getLast?_cons_of_ne_nil hne] at hdot
      exact he.2.2 (List.mem_of_getLast? hdot)
    simp only [isFileName, Bool.and_eq_true, bne_iff_ne]
    refine ⟨⟨by simp, fun h => hlast ?_⟩, fun h => hlast ?_⟩ <;> rw [h] <;> rfl

/-- The last extension counts. -/
theorem EndsIn.withExtension_withExtension (h : p.EndsIn front name) (he : IsExtension e)
    (e' : String) : (p.withExtension e).withExtension e' = p.withExtension e' := by
  rw [(h.withExtension he).withExtension_eq, h.withExtension_eq,
    stem_append he.2.2 (stem_ne_nil h.ne_nil)]

/-- The path ends in a name with the extension. -/
def HasExtension (p : FilePath) (e : String) : Prop :=
  ∃ front stem, stem ≠ [] ∧ p.EndsIn front (stem ++ '.' :: e.toList)

/-- The extension that a path has already can be given to it. -/
theorem EndsIn.withExtension_eq_self_iff (h : p.EndsIn front name) (he : IsExtension e) :
    p.withExtension e = p ↔ p.HasExtension e := by
  constructor
  · intro heq
    exact ⟨front, stem name, stem_ne_nil h.ne_nil, by simpa [heq] using h.withExtension he⟩
  · rintro ⟨front', s, hs, h'⟩
    rw [h'.withExtension_eq, stem_append he.2.2 hs, ← h'.toList, String.ofList_toList]

end FilePath

/-! ## §3 The places they lead to -/

namespace FileSystem

open FilePath

variable {fs : FileSystem} {p q : FilePath} {front name name' : List Char} {k l : Location}

/-- A path at which a file can be written ends in its name. -/
theorem exists_endsIn (hp : fs.target p = .ok l) : ∃ front name, p.EndsIn front name := by
  obtain ⟨k, last, hk, -, hslash, -⟩ := target_iff.mp hp
  obtain ⟨-, -, -, -, hlast⟩ := locateParent_iff.mp hk
  obtain ⟨hlast, hfile⟩ := Option.filter_eq_some_iff.mp hlast
  obtain ⟨front, h⟩ := endsIn_of_getLast? hlast hfile hslash
  exact ⟨front, _, h⟩

/-- The name of a file leads down. -/
theorem eq_append_of_beside {name : String} (hfile : isFileName name.toList = true)
    (hl : beside k name = .ok l) : l = k ++ [name] := by
  simp only [isFileName, Bool.and_eq_true, bne_iff_ne, ne_eq, String.toList_inj] at hfile
  unfold beside at hl
  rw [if_neg hfile.1.2, if_neg hfile.2] at hl
  split at hl
  · cases hl
  · exact (Except.ok.inj hl).symm

/-- The place is under that name, in the directory that the names in front of it lead to. -/
theorem eq_append_of_target (h : p.EndsIn front name) (hp : fs.target p = .ok l) :
    ∃ k, (names ⟨.ofList front⟩).foldlM fs.follow
        (if front.head? = some '/' then [] else fs.workingDirectory) = .ok k ∧
      l = k ++ [.ofList name] := by
  obtain ⟨k, last, hk, hbeside, -⟩ := target_iff.mp hp
  obtain ⟨o, ho, hnames, -, hlast⟩ := locateParent_iff.mp hk
  obtain ⟨hlast, hfile⟩ := Option.filter_eq_some_iff.mp hlast
  rw [h.names_eq, List.dropLast_concat] at hnames
  rw [h.names_eq, List.getLast?_concat, Option.some.injEq] at hlast
  subst hlast
  have horigin : o = if front.head? = some '/' then [] else fs.workingDirectory := by
    unfold origin at ho
    rw [h.isAbsolute_eq] at ho
    split at ho
    · cases ho
    split at ho
    · cases ho
    split at ho <;> simp_all
  exact ⟨k, horigin ▸ hnames, eq_append_of_beside hfile hbeside⟩

/-- Within a directory, two paths that lead to one place are the same. -/
theorem eq_of_target (h : p.EndsIn front name) (h' : q.EndsIn front name')
    (hp : fs.target p = .ok l) (hq : fs.target q = .ok l) : p = q := by
  obtain ⟨k, hk, hl⟩ := eq_append_of_target h hp
  obtain ⟨k', hk', hl'⟩ := eq_append_of_target h' hq
  obtain rfl := Except.ok.inj (hk.symm.trans hk')
  have hname : name = name' :=
    String.ofList_injective (List.cons.inj (List.append_cancel_left (hl.symm.trans hl'))).1
  exact h.ext (hname ▸ h')

/-- With another extension, a path leads to another place. -/
theorem target_withExtension_iff {e : String} (hp : fs.target p = .ok l) (he : IsExtension e) :
    fs.target (p.withExtension e) = .ok l ↔ p.withExtension e = p := by
  obtain ⟨front, name, h⟩ := exists_endsIn hp
  constructor
  · intro hq
    exact eq_of_target (h.withExtension he) h hq hp
  · intro heq
    rw [heq, hp]

theorem target_withExtension_iff_hasExtension {e : String} (hp : fs.target p = .ok l)
    (he : IsExtension e) : fs.target (p.withExtension e) = .ok l ↔ p.HasExtension e := by
  obtain ⟨front, name, h⟩ := exists_endsIn hp
  rw [target_withExtension_iff hp he, h.withExtension_eq_self_iff he]

end FileSystem

end CopyControl
