import CopyControl.Files.System
import CopyControl.Proofs.Association

/-!
Where paths lead while files are written.

A path is followed through directories, so it leads to the same place for as long as the
directories are the same, whatever becomes of the files (`SameDirectories.target`). The place at
which a file can be written is also the one to which a file can be moved (`destination_iff`), and
the one that is found as soon as there is a file (`locate_iff`).

* §1 what is at a place
* §2 following a path
* §3 the places of files
* §4 programs
-/

namespace CopyControl.FileSystem

variable {fs fs' fs'' : FileSystem} {l m : Location} {p : FilePath} {e : Entry}

/-! ## §1 What is at a place -/

theorem entry?_nil (fs : FileSystem) : fs.entry? [] = some .directory := rfl

theorem entry?_of_ne_nil (hl : l ≠ []) : fs.entry? l = fs.entries.lookup l := by
  rw [ entry?, if_neg (by simpa using hl)]

/-- The root is a directory. -/
theorem ne_nil_of_free (hl : fs.entry? l ≠ some .directory) : l ≠ [] := fun h =>
  hl (h ▸ entry?_nil fs)

theorem entry?_put (hl : l ≠ []) (e : Entry) :
    entry? (fs.put l e) m = if m = l then some e else fs.entry? m := by
  by_cases hm : m = []
  · rw [hm, if_neg hl.symm]
    rfl
  · rw [entry?_of_ne_nil hm, entry?_of_ne_nil hm]
    exact lookup_put e

theorem entry?_erase (hl : l ≠ []) :
    entry? (fs.erase l) m = if m = l then none else fs.entry? m := by
  by_cases hm : m = []
  · rw [hm, if_neg hl.symm]
    rfl
  · rw [entry?_of_ne_nil hm, entry?_of_ne_nil hm]
    split
    · rename_i heq
      exact heq ▸ lookup_filter_self
    · exact lookup_filter_ne ‹_›

/-- There are the same directories, and the same one is worked in. -/
structure SameDirectories (fs fs' : FileSystem) : Prop where
  workingDirectory : fs'.workingDirectory = fs.workingDirectory
  directory : ∀ l, fs'.entry? l = some .directory ↔ fs.entry? l = some .directory

theorem SameDirectories.refl (fs : FileSystem) : fs.SameDirectories fs :=
  ⟨rfl, fun _ => .rfl⟩

theorem SameDirectories.symm (h : fs.SameDirectories fs') : fs'.SameDirectories fs :=
  ⟨h.workingDirectory.symm, fun l => (h.directory l).symm⟩

theorem SameDirectories.trans (h : fs.SameDirectories fs') (h' : fs'.SameDirectories fs'') :
    fs.SameDirectories fs'' :=
  ⟨h'.workingDirectory.trans h.workingDirectory, fun l => (h'.directory l).trans (h.directory l)⟩

/-- A file is put where there is no directory, -/
theorem sameDirectories_put (hl : fs.entry? l ≠ some .directory) (he : e ≠ .directory) :
    fs.SameDirectories (fs.put l e) where
  workingDirectory := rfl
  directory m := by
    rw [entry?_put (ne_nil_of_free hl)]
    split
    · rename_i heq
      simp [heq, hl, he]
    · exact .rfl

/-- and taken away where there is none. -/
theorem sameDirectories_erase (hl : fs.entry? l ≠ some .directory) :
    fs.SameDirectories (fs.erase l) where
  workingDirectory := rfl
  directory m := by
    rw [entry?_erase (ne_nil_of_free hl)]
    split
    · rename_i heq
      simp [heq, hl]
    · exact .rfl

/-! ## §2 Following a path -/

theorem bind_eq_ok_iff {ε α β : Type} {x : Except ε α} {f : α → Except ε β} {b : β} :
    (x >>= f) = .ok b ↔ ∃ a, x = .ok a ∧ f a = .ok b := by
  cases x with
  | ok a => simp [bind, Except.bind]
  | error e => simp [bind, Except.bind]

theorem requireDirectory_iff {u : Unit} :
    fs.requireDirectory l = .ok u ↔ fs.entry? l = some .directory := by
  unfold requireDirectory
  split <;> simp_all

theorem follow_iff {name : String} : fs.follow l name = .ok m ↔
    fs.entry? l = some .directory ∧ beside l name = .ok m ∧ (fs.entry? m).isSome := by
  have hthere : ∀ k : Location,
      (if (fs.entry? k).isSome then Except.ok k else .error FileError.notFound) = .ok m ↔
        k = m ∧ (fs.entry? m).isSome := fun k => by
    split
    · rename_i hk
      simpa using fun h : k = m => h ▸ hk
    · rename_i hk
      simpa using fun h : k = m => h ▸ Option.not_isSome_iff_eq_none.mp hk
  simp only [follow, bind_eq_ok_iff, requireDirectory_iff, hthere, exists_const]
  simp

theorem foldlM_follow_cons {name : String} {names : List String} :
    (name :: names).foldlM fs.follow l = .ok m ↔
      ∃ k, fs.follow l name = .ok k ∧ names.foldlM fs.follow k = .ok m := by
  rw [List.foldlM_cons, bind_eq_ok_iff]

/-- The names on the way to a directory lead on from directories. -/
theorem entry?_of_foldlM_follow {names : List String} (hm : fs.entry? m = some .directory)
    (hf : names.foldlM fs.follow l = .ok m) : fs.entry? l = some .directory := by
  cases names with
  | nil => rwa [Except.ok.inj hf]
  | cons name names =>
    obtain ⟨k, hk, -⟩ := foldlM_follow_cons.mp hf
    exact (follow_iff.mp hk).1

theorem SameDirectories.foldlM_follow (h : fs.SameDirectories fs') {names : List String}
    (hm : fs.entry? m = some .directory) (hf : names.foldlM fs.follow l = .ok m) :
    names.foldlM fs'.follow l = .ok m := by
  induction names generalizing l with
  | nil => exact hf
  | cons name names ih =>
    obtain ⟨k, hk, hf⟩ := foldlM_follow_cons.mp hf
    obtain ⟨hl, hbeside, -⟩ := follow_iff.mp hk
    have hk' : fs'.entry? k = some .directory :=
      (h.directory k).mpr (entry?_of_foldlM_follow hm hf)
    refine foldlM_follow_cons.mpr ⟨k, follow_iff.mpr ⟨(h.directory l).mpr hl, hbeside, ?_⟩, ih hf⟩
    rw [hk']
    rfl

theorem SameDirectories.origin (h : fs.SameDirectories fs') (p : FilePath) :
    fs'.origin p = fs.origin p := by
  rw [FileSystem.origin, FileSystem.origin, h.workingDirectory]

theorem locateParent_iff {name : Option String} : fs.locateParent p = .ok (l, name) ↔
    ∃ k, fs.origin p = .ok k ∧ p.names.dropLast.foldlM fs.follow k = .ok l ∧
      fs.entry? l = some .directory ∧
      p.names.getLast?.filter (fun name => FilePath.isFileName name.toList) = name := by
  simp only [locateParent, bind_eq_ok_iff, requireDirectory_iff, pure, Except.pure,
    Except.ok.injEq, Prod.mk.injEq, exists_const]
  constructor
  · rintro ⟨k, hk, l', hl', hdir, rfl, hname⟩
    exact ⟨k, hk, hl', hdir, hname⟩
  · rintro ⟨k, hk, hl, hdir, hname⟩
    exact ⟨k, hk, l, hl, hdir, rfl, hname⟩

/-- The directory that a path leads to is the same if the directories are. -/
theorem SameDirectories.locateParent (h : fs.SameDirectories fs') {name : Option String}
    (hp : fs.locateParent p = .ok (l, name)) : fs'.locateParent p = .ok (l, name) := by
  obtain ⟨k, hk, hl, hdir, hname⟩ := locateParent_iff.mp hp
  exact locateParent_iff.mpr
    ⟨k, (h.origin p).trans hk, h.foldlM_follow hdir hl, (h.directory l).mpr hdir, hname⟩

/-! ## §3 The places of files -/

/-- A file can be written under a name in a directory, where there is no other directory. -/
theorem target_iff : fs.target p = .ok l ↔
    ∃ k name, fs.locateParent p = .ok (k, some name) ∧ beside k name = .ok l ∧
      p.endsInSlash = false ∧ fs.entry? l ≠ some .directory := by
  rw [target, bind_eq_ok_iff]
  constructor
  · rintro ⟨⟨k, _ | name⟩, hk, h⟩
    · obtain ⟨_, _, h⟩ := bind_eq_ok_iff.mp h
      cases h
    · obtain ⟨l', hl', h⟩ := bind_eq_ok_iff.mp h
      split at h
      · cases h
      · rename_i hfree
        obtain rfl := Except.ok.inj h
        exact ⟨k, name, hk, hl', by simpa using hfree⟩
  · rintro ⟨k, name, hk, hl, hslash, hfree⟩
    exact ⟨(k, some name), hk, bind_eq_ok_iff.mpr ⟨l, hl, by simp [hslash, hfree]⟩⟩

/-- A file can be moved to where one can be written. -/
theorem destination_iff : fs.destination p = .ok l ↔ fs.target p = .ok l := by
  rw [target_iff, destination, bind_eq_ok_iff]
  constructor
  · rintro ⟨⟨k, _ | name⟩, hk, h⟩
    · cases h
    · obtain ⟨l', hl', h⟩ := bind_eq_ok_iff.mp h
      split at h
      · cases h
      · split at h
        · cases h
        · rename_i hslash hfree
          obtain rfl := Except.ok.inj h
          exact ⟨k, name, hk, hl', Bool.eq_false_iff.mpr hslash, hfree⟩
  · rintro ⟨k, name, hk, hl, hslash, hfree⟩
    exact ⟨(k, some name), hk, bind_eq_ok_iff.mpr ⟨l, hl, by simp [hslash, hfree]⟩⟩

theorem entry?_of_target (hp : fs.target p = .ok l) : fs.entry? l ≠ some .directory := by
  obtain ⟨-, -, -, -, -, hfree⟩ := target_iff.mp hp
  exact hfree

/-- The place of a file is the same if the directories are. -/
theorem SameDirectories.target (h : fs.SameDirectories fs') (hp : fs.target p = .ok l) :
    fs'.target p = .ok l := by
  obtain ⟨k, name, hk, hl, hslash, hfree⟩ := target_iff.mp hp
  exact target_iff.mpr
    ⟨k, name, h.locateParent hk, hl, hslash, fun hdir => hfree ((h.directory l).mp hdir)⟩

theorem SameDirectories.target_iff (h : fs.SameDirectories fs') :
    fs'.target p = .ok l ↔ fs.target p = .ok l :=
  ⟨h.symm.target, h.target⟩

/-- It is the one that is found, as soon as something is there. -/
theorem locate_iff (hp : fs.target p = .ok l) :
    fs.locate p = .ok m ↔ m = l ∧ (fs.entry? l).isSome := by
  obtain ⟨k, name, hk, hbeside, hslash, -⟩ := target_iff.mp hp
  obtain ⟨o, ho, hnames, hdir, hname⟩ := locateParent_iff.mp hk
  have hlast : p.names = p.names.dropLast ++ [name] := by
    obtain ⟨hlast, -⟩ := Option.filter_eq_some_iff.mp hname
    exact (List.dropLast_append_getLast? name hlast).symm
  have hlocate : fs.locate p = p.names.foldlM fs.follow o := by
    rw [locate, ho]
    simp only [bind, Except.bind, hslash, pure, Except.pure]
    cases p.names.foldlM fs.follow o <;> rfl
  have hfollow : p.names.foldlM fs.follow o = fs.follow k name := by
    rw [hlast, List.foldlM_append, hnames]
    exact bind_pure (fs.follow k name)
  rw [hlocate, hfollow, follow_iff, hbeside, Except.ok.injEq]
  constructor
  · rintro ⟨-, rfl, hl⟩
    exact ⟨rfl, hl⟩
  · rintro ⟨rfl, hl⟩
    exact ⟨hdir, rfl, hl⟩

/-- What is read there is what the file holds. -/
theorem readText_iff {s : String} (hp : fs.target p = .ok l) :
    fs.readText p = .ok s ↔ fs.entry? l = some (.file (.text s)) := by
  rw [readText, bind_eq_ok_iff]
  simp only [locate_iff hp]
  constructor
  · rintro ⟨m, ⟨rfl, -⟩, hs⟩
    split at hs
    · rename_i heq
      rw [heq, Except.ok.inj hs]
    all_goals cases hs
  · intro hl
    exact ⟨l, ⟨rfl, by simp [hl]⟩, by simp [hl]⟩

theorem isThere_iff (hp : fs.target p = .ok l) :
    fs.isThere p = true ↔ (fs.entry? l).isSome := by
  have hlocate : ∀ m, fs.locate p = .ok m ↔ m = l ∧ (fs.entry? l).isSome := fun m => locate_iff hp
  rw [isThere]
  cases h : fs.locate p with
  | ok m => exact iff_of_true rfl ((hlocate m).mp h).2
  | error e =>
    have hl := (hlocate l).not.mp (by simp [h])
    exact iff_of_false Bool.false_ne_true fun hsome => hl ⟨rfl, hsome⟩

theorem isThere_of_readText {s : String} (hs : fs.readText p = .ok s) : fs.isThere p = true := by
  obtain ⟨l, hl, -⟩ := bind_eq_ok_iff.mp hs
  rw [isThere, hl]
  rfl

/-! ## §4 Programs -/

theorem run_readText (fs : FileSystem) (p : FilePath) :
    (Files.readText p : FileState _).run fs = pure (fs.readText p, fs) := rfl

theorem run_isThere (fs : FileSystem) (p : FilePath) :
    (Files.isThere p : FileState _).run fs = pure (fs.isThere p, fs) := rfl

theorem run_change {op : FileSystem → Except FileError FileSystem} (h : op fs = .ok fs') :
    (FileState.change op).run fs = pure (.ok (), fs') := by
  simp [FileState.change, h]

theorem run_change_error {op : FileSystem → Except FileError FileSystem} {e : FileError}
    (h : op fs = .error e) : (FileState.change op).run fs = pure (.error e, fs) := by
  simp [FileState.change, h]

theorem run_writeText {s : String} (h : fs.writeText p s = .ok fs') :
    (Files.writeText p s : FileState _).run fs = pure (.ok (), fs') :=
  run_change h

theorem run_writeText_error {s : String} {e : FileError} (h : fs.writeText p s = .error e) :
    (Files.writeText p s : FileState _).run fs = pure (.error e, fs) :=
  run_change_error h

theorem run_rename {q : FilePath} (h : fs.rename p q = .ok fs') :
    (Files.rename p q : FileState _).run fs = pure (.ok (), fs') :=
  run_change h

theorem run_rename_error {q : FilePath} {e : FileError} (h : fs.rename p q = .error e) :
    (Files.rename p q : FileState _).run fs = pure (.error e, fs) :=
  run_change_error h

end CopyControl.FileSystem
