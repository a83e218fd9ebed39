import CopyControl.Command.Page
import CopyControl.Proofs.Files.Extensions

/-!
What becomes of the files when a page is written.

A page is first written beside its place, to a file whose name is told by the name of the output
alone, and that file is then moved. So there are three ways in which it can go (`Saves`): nothing
can be written beside the output, or the page cannot be moved from there, or it is moved. No file is
other than before but the output and the one beside it (`Saves.elsewhere`), and the output never
holds a part of a page (`Saves.there`).

The file beside the output is meant to leave no trace. But nobody looks whether there is such a file
already, and it is lost when the page is moved; and where the page cannot be moved, it stays there
(`Saves.beside`). So nothing but the output is other than before if and only if what is left beside
it is what was there (`Saves.confined_iff`).

* §1 how it can go
* §2 what is other than before
* §3 whether that is the output alone
-/

namespace CopyControl.LivePage

open FileSystem

variable {fs fs' : FileSystem} {output : FilePath} {page : String} {r : Except Failure Unit}
  {k l m : Location}

/-! ## §1 How it can go -/

/-- How the writing of a page ends, and the files that it leaves. -/
inductive Saves (fs : FileSystem) (output : FilePath) (page : String) :
    Except Failure Unit → FileSystem → Prop
  /-- Nothing can be written beside the output. -/
  | refused {e : FileError} (ht : fs.target (temporary output) = .error e) :
      Saves fs output page (.error (.writeTemporary (temporary output) e)) fs
  /-- The page stays beside the output. -/
  | stranded {m : Location} {e : FileError} (ht : fs.target (temporary output) = .ok m)
      (ho : ∀ l, fs.target output ≠ .ok l) :
      Saves fs output page (.error (.moveTemporary output e)) (fs.put m (.file (.text page)))
  | moved {m l : Location} (ht : fs.target (temporary output) = .ok m)
      (ho : fs.target output = .ok l) :
      Saves fs output page (.ok ())
        (((fs.put m (.file (.text page))).erase m).put l (.file (.text page)))

theorem entry?_put_self (hm : fs.entry? m ≠ some .directory) (e : Entry) :
    entry? (fs.put m e) m = some e := by
  rw [entry?_put (ne_nil_of_free hm), if_pos rfl]

/-- The page beside the output can be moved if and only if the output can be written. -/
theorem rename_temporary (ht : fs.target (temporary output) = .ok m) (page : String) :
    (fs.put m (.file (.text page))).rename (temporary output) output =
      (destination (fs.put m (.file (.text page))) output).map
        (((fs.put m (.file (.text page))).erase m).put · (.file (.text page))) := by
  have hm := entry?_of_target ht
  have hentry := entry?_put_self hm (.file (.text page))
  have hwritten := sameDirectories_put (e := .file (.text page)) hm (by simp)
  have hsource := (locate_iff (hwritten.target ht)).mpr ⟨rfl, Option.isSome_of_mem hentry⟩
  rw [rename, hsource]
  cases hd : destination (fs.put m (.file (.text page))) output with
  | error e => rfl
  | ok l => simp [bind, Except.bind, Except.map, hentry]

/-- A page is written in one of the three ways. -/
theorem saves_save (fs : FileSystem) (h : Host) (output : FilePath) :
    ∃ r fs', (save h output : FileState _).run fs = pure (r, fs') ∧
      Saves fs output h.document.pageHtml r fs' := by
  obtain ⟨page, hpage⟩ : ∃ page, page = h.document.pageHtml := ⟨_, rfl⟩
  rw [save, ← hpage, StateT.run_bind]
  cases ht : fs.target (temporary output) with
  | error e =>
    have hwrite : fs.writeText (temporary output) page = .error e := by rw [writeText, ht]; rfl
    exact ⟨_, fs, by rw [run_writeText_error hwrite]; rfl, .refused ht⟩
  | ok m =>
    have hwrite : fs.writeText (temporary output) page = .ok (fs.put m (.file (.text page))) := by
      rw [writeText, ht]
      rfl
    have hwritten := sameDirectories_put (e := .file (.text page)) (entry?_of_target ht) (by simp)
    have hrename := rename_temporary ht page
    rw [run_writeText hwrite, pure_bind]
    dsimp only
    rw [StateT.run_bind]
    cases hd : destination (fs.put m (.file (.text page))) output with
    | error e =>
      rw [hd] at hrename
      refine ⟨_, _, by rw [run_rename_error hrename]; rfl, .stranded ht fun l hl => ?_⟩
      have hl := destination_iff.mpr (hwritten.target hl)
      cases hd.symm.trans hl
    | ok l =>
      rw [hd] at hrename
      refine ⟨_, _, by rw [run_rename hrename]; rfl, .moved ht ?_⟩
      exact hwritten.target_iff.mp (destination_iff.mp hd)

/-- The page is written if and only if both files can be. -/
theorem Saves.eq_ok_iff (hs : Saves fs output page r fs') :
    r = .ok () ↔
      (∃ m, fs.target (temporary output) = .ok m) ∧ ∃ l, fs.target output = .ok l := by
  cases hs with
  | refused ht => simp [ht]
  | stranded _ ho => simp [ho]
  | moved ht ho => simp [ht, ho]

/-! ## §2 What is other than before -/

/-- No directory comes or goes. -/
theorem Saves.sameDirectories (hs : Saves fs output page r fs') : fs.SameDirectories fs' := by
  cases hs with
  | refused ht => exact .refl fs
  | stranded ht ho => exact sameDirectories_put (entry?_of_target ht) (by simp)
  | @moved m l ht ho =>
    have hm := entry?_of_target ht
    have hwritten := sameDirectories_put (e := .file (.text page)) hm (by simp)
    have hentry := entry?_put_self hm (.file (.text page))
    have herased := hwritten.trans (sameDirectories_erase (l := m) (by simp [hentry]))
    have hl := entry?_of_target (herased.target ho)
    exact herased.trans (sameDirectories_put hl (by simp))

/-- What is at each place after a page has been moved. -/
theorem entry?_moved (ht : fs.target (temporary output) = .ok m) (ho : fs.target output = .ok l)
    (page : String) (k : Location) :
    entry? (((fs.put m (.file (.text page))).erase m).put l (.file (.text page))) k =
      if k = l then some (.file (.text page)) else if k = m then none else fs.entry? k := by
  have hm := ne_nil_of_free (entry?_of_target ht)
  rw [entry?_put (ne_nil_of_free (entry?_of_target ho)), entry?_erase hm, entry?_put hm]
  split
  · rfl
  · split <;> rfl

/-- All files but two are as before. -/
theorem Saves.elsewhere (hs : Saves fs output page r fs') (ho : fs.target output ≠ .ok k)
    (ht : fs.target (temporary output) ≠ .ok k) : fs'.entry? k = fs.entry? k := by
  cases hs with
  | refused _ => rfl
  | @stranded m _ hm _ =>
    have hk : k ≠ m := fun hk => ht (hk ▸ hm)
    rw [entry?_put (ne_nil_of_free (entry?_of_target hm)), if_neg hk]
  | @moved m l hm hl =>
    have hkm : k ≠ m := fun hk => ht (hk ▸ hm)
    have hkl : k ≠ l := fun hk => ho (hk ▸ hl)
    rw [entry?_moved hm hl, if_neg hkl, if_neg hkm]

/-- The output holds all of the page if it has been written, and else what it held. -/
theorem Saves.there (hs : Saves fs output page r fs') (ho : fs.target output = .ok l) :
    fs'.entry? l = if r = .ok () then some (.file (.text page)) else fs.entry? l := by
  cases hs with
  | refused _ => simp
  | stranded _ hnone => exact absurd ho (hnone l)
  | moved ht hl =>
    obtain rfl := Except.ok.inj (ho.symm.trans hl)
    rw [entry?_moved ht hl, if_pos rfl, if_pos rfl]

/-- What is left beside an output: nothing, or the page that cannot be moved. -/
def leftBeside (fs : FileSystem) (output : FilePath) (page : String) : Option Entry :=
  if (fs.target output).isOk then none else some (.file (.text page))

theorem target_temporary_iff (ho : fs.target output = .ok l) :
    fs.target (temporary output) = .ok l ↔ temporary output = output :=
  target_withExtension_iff ho (by decide)

/-- Whatever was beside the output, nobody has looked at it. -/
theorem Saves.beside (hs : Saves fs output page r fs')
    (ht : fs.target (temporary output) = .ok m) (hne : temporary output ≠ output) :
    fs'.entry? m = leftBeside fs output page := by
  cases hs with
  | refused he => cases he.symm.trans ht
  | stranded hm hnone =>
    obtain rfl := Except.ok.inj (ht.symm.trans hm)
    rw [entry?_put_self (entry?_of_target ht), leftBeside]
    cases ho : fs.target output with
    | ok l => exact absurd ho (hnone l)
    | error e => rfl
  | @moved _ l hm hl =>
    obtain rfl := Except.ok.inj (ht.symm.trans hm)
    have hml : m ≠ l := fun h => hne ((target_temporary_iff hl).mp (h ▸ ht))
    rw [entry?_moved ht hl, if_neg hml, if_pos rfl, leftBeside, hl]
    rfl

/-! ## §3 Whether that is the output alone -/

/-- Nothing but the output is other than before, and the output holds what it held or all of the
page. -/
structure Confined (fs : FileSystem) (output : FilePath) (page : String) (fs' : FileSystem) :
    Prop where
  elsewhere : ∀ k, fs.target output ≠ .ok k → fs'.entry? k = fs.entry? k
  there : ∀ l, fs.target output = .ok l →
    fs'.entry? l = fs.entry? l ∨ fs'.entry? l = some (.file (.text page))

/-- What is left beside the output has been there before, if it is another file that is written
first. -/
def Traceless (fs : FileSystem) (output : FilePath) (page : String) : Prop :=
  temporary output = output ∨
    ∀ m, fs.target (temporary output) = .ok m → fs.entry? m = leftBeside fs output page

/-- Whether or not the page can be written, this decides. -/
theorem Saves.confined_iff (hs : Saves fs output page r fs') :
    Confined fs output page fs' ↔ Traceless fs output page := by
  constructor
  · intro hc
    by_cases heq : temporary output = output
    · exact .inl heq
    refine .inr fun m ht => ?_
    have hne : fs.target output ≠ .ok m := fun ho => heq ((target_temporary_iff ho).mp ht)
    exact (hc.elsewhere m hne).symm.trans (hs.beside ht heq)
  · intro htrace
    refine ⟨fun k ho => ?_, fun l ho => ?_⟩
    · by_cases ht : fs.target (temporary output) = .ok k
      · have heq : temporary output ≠ output := fun heq => ho (heq ▸ ht)
        exact (hs.beside ht heq).trans ((htrace.resolve_left heq) k ht).symm
      · exact hs.elsewhere ho ht
    · rw [hs.there ho]
      split
      · exact .inr rfl
      · exact .inl rfl

end CopyControl.LivePage
