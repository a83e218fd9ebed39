import CopyControl.Command.Run
import CopyControl.Proofs.Command.Current

/-!
Which files the program changes.

The program changes files only where it writes a page, when it is asked to render one into a file
and in the rounds of a watch. What that does to the files is told by the name of the output alone
(`Footprint`): the output holds all of the page or what it held, and besides it there is one other
file that can be other than before, the one that a page is first written to. If there was such a
file, it is lost, even if it is the source (`source_lost`). A watch that is not told where to write
takes its source with another extension, and that is another file unless the source has that
extension already (`FileEffects.unsaid`).

* §1 what writing a page does to files
* §2 commands
* §3 watches
* §4 all of the program
-/

namespace CopyControl

open FileSystem LivePage

/-! ## §1 What writing a page does to files -/

/-- What has become of the files when a page has been written, or could not be. -/
structure Footprint (fs : FileSystem) (output : FilePath) (page : String)
    (r : Except Failure Unit) (fs' : FileSystem) : Prop where
  success : r = .ok () ↔
    (∃ m, fs.target (temporary output) = .ok m) ∧ ∃ l, fs.target output = .ok l
  directories : fs.SameDirectories fs'
  elsewhere : ∀ k, fs.target output ≠ .ok k → fs.target (temporary output) ≠ .ok k →
    fs'.entry? k = fs.entry? k
  there : ∀ l, fs.target output = .ok l →
    fs'.entry? l = if r = .ok () then some (.file (.text page)) else fs.entry? l
  beside : ∀ m, fs.target (temporary output) = .ok m → temporary output ≠ output →
    fs'.entry? m = leftBeside fs output page
  confined_iff : Confined fs output page fs' ↔ Traceless fs output page

variable {fs fs' : FileSystem} {output : FilePath} {page : String} {r : Except Failure Unit}
  {k : Location}

theorem LivePage.Saves.footprint (hs : Saves fs output page r fs') :
    Footprint fs output page r fs' where
  success := hs.eq_ok_iff
  directories := hs.sameDirectories
  elsewhere _ ho ht := hs.elsewhere ho ht
  there _ ho := hs.there ho
  beside _ ht hne := hs.beside ht hne
  confined_iff := hs.confined_iff

/-! ## §2 Commands -/

/-- To load settings changes no file. -/
theorem Settings.run_load (path : FilePath) (fs : FileSystem) :
    ∃ r, (Settings.load path : FileState _).run fs = pure (r, fs) := by
  rw [Settings.load, StateT.run_bind, run_isThere, pure_bind]
  dsimp only
  split
  · rw [StateT.run_bind, run_readText, pure_bind]
    dsimp only
    split
    · split <;> exact ⟨_, rfl⟩
    · exact ⟨_, rfl⟩
  · exact ⟨_, rfl⟩

namespace Command

variable {s : Surroundings} {settings : Settings} {input : FilePath} {markdown : String}
  {work : Host → FileState (Outcome × Host)} {h h' : Host} {o : Outcome}

/-- Without a page there is no work. -/
theorem run_withPage_error {e : FileError} (hread : fs.readText input = .error e) :
    (withPage s settings input work : FileState Course).run fs =
      pure (.ends (.failed (.readPage input e) ""), fs) := by
  rw [withPage, StateT.run_bind, run_load_error hread]
  rfl

/-- With a page, what becomes of the files is told by the work. -/
theorem run_withPage (hread : fs.readText input = .ok markdown)
    (hmade : ofMarkdown s.reader s.clipboard settings markdown = .ok h)
    (hwork : (work h).run fs = pure ((o, h'), fs')) :
    (withPage s settings input work : FileState Course).run fs =
      pure (.ends (o.withLog ((s.filter settings).lines (close h'))), fs') := by
  rw [withPage, StateT.run_bind, LivePage.run_load hread hmade, pure_bind]
  dsimp only
  rw [StateT.run_bind, hwork]
  rfl

/-- To render a page into a file succeeds if the page is written. -/
theorem run_render (s : Surroundings) (settings : Settings) (input output : FilePath)
    (fs : FileSystem) :
    ∃ o fs', (run s settings (.render input (some output)) : FileState Course).run fs =
        pure (.ends o, fs') ∧
      ((∀ markdown, fs.readText input ≠ .ok markdown) ∧ o.code ≠ 0 ∧ fs' = fs ∨
        ∃ markdown h r, fs.readText input = .ok markdown ∧
          ofMarkdown s.reader s.clipboard settings markdown = .ok h ∧ (o.code = 0 ↔ r = .ok ()) ∧
          Saves fs output h.document.pageHtml r fs') := by
  cases hread : fs.readText input with
  | error e =>
    exact ⟨_, fs, run_withPage_error hread, .inl ⟨by simp, by simp [Outcome.failed], rfl⟩⟩
  | ok markdown =>
    obtain ⟨-, h, -, hmade, -⟩ := ofMarkdown_spec s.reader s.clipboard settings markdown
    obtain ⟨r, fs', hsave, hs⟩ := saves_save fs h output
    have hpublish : ∃ o, (publish h (some output) : FileState Outcome).run fs = pure (o, fs') ∧
        (o.code = 0 ↔ r = .ok ()) := by
      rw [publish, StateT.run_bind, hsave, pure_bind]
      cases r with
      | error e => exact ⟨_, rfl, by simp [Outcome.failed]⟩
      | ok u => exact ⟨_, rfl, by simp [Outcome.success]⟩
    obtain ⟨o, hpublish, hcode⟩ := hpublish
    have hwork : (do return (← publish h (some output), h) : FileState (Outcome × Host)).run fs =
        pure ((o, h), fs') := by
      rw [StateT.run_bind, hpublish]
      rfl
    exact ⟨_, fs', run_withPage hread hmade hwork, .inr ⟨markdown, h, r, rfl, hmade, hcode, hs⟩⟩

/-- No other command changes files. -/
theorem run_of_ne_render (s : Surroundings) (settings : Settings) {command : Command}
    (hne : ∀ input output, command ≠ .render input (some output)) (fs : FileSystem) :
    ∃ course, (run s settings command : FileState Course).run fs = pure (course, fs) := by
  have hwork : ∀ (input : FilePath) (work : Host → FileState (Outcome × Host)),
      (∀ h, ∃ x, (work h).run fs = pure (x, fs)) →
      ∃ course, (withPage s settings input work : FileState Course).run fs = pure (course, fs) :=
    fun input work hw => by
      cases hread : fs.readText input with
      | error e => exact ⟨_, run_withPage_error hread⟩
      | ok markdown =>
        obtain ⟨-, h, -, hmade, -⟩ := ofMarkdown_spec s.reader s.clipboard settings markdown
        obtain ⟨⟨o, h'⟩, hx⟩ := hw h
        exact ⟨_, run_withPage hread hmade hx⟩
  cases command with
  | render input output =>
    cases output with
    | none => exact hwork input _ fun h => ⟨_, rfl⟩
    | some output => exact absurd rfl (hne input output)
  | copy input block hold => exact hwork input _ fun h => ⟨_, rfl⟩
  | watch input output => exact ⟨_, rfl⟩

/-- Before a command is run, no file is changed. -/
theorem run_start (s : Surroundings) (arguments : List String) (fs : FileSystem) :
    (∃ o, (start s arguments : FileState Course).run fs = pure (.ends o, fs)) ∨
      ∃ command settings, read arguments = .ok command ∧
        (start s arguments : FileState Course).run fs =
          (command.run s settings : FileState Course).run fs := by
  unfold start
  split
  · exact .inl ⟨_, rfl⟩
  · exact .inl ⟨_, rfl⟩
  · rename_i command home hcommand _
    obtain ⟨r, hload⟩ := Settings.run_load (Settings.file home) fs
    rw [StateT.run_bind, hload, pure_bind]
    cases r with
    | error e => exact .inl ⟨_, rfl⟩
    | ok settings => exact .inr ⟨command, settings, hcommand, rfl⟩

end Command

/-! ## §3 Watches -/

namespace Watch

/-- A stage of a watch changes files only where it writes the page. -/
theorem run_advance (w : Watch) (stage : Stage) (fs : FileSystem) :
    ∃ stage' fs', (w.advance stage : FileState Stage).run fs = pure (stage', fs') ∧
      (fs' = fs ∨ ∃ h r, stage.page? = some h ∧
        Saves fs w.output h.document.pageHtml r fs') := by
  cases stage with
  | opening =>
    cases hread : fs.readText w.input with
    | error e =>
      exact ⟨_, fs, by rw [advance, StateT.run_bind, run_load_error hread]; rfl, .inl rfl⟩
    | ok markdown =>
      obtain ⟨h, hrun, -⟩ := run_advance_opening hread
      exact ⟨.saving h, fs, hrun, .inl rfl⟩
  | saving h | resaving h =>
    obtain ⟨r, fs', hsave, hs⟩ := saves_save fs h w.output
    exact ⟨_, fs', by rw [advance, StateT.run_bind, hsave]; rfl, .inr ⟨h, r, rfl, hs⟩⟩
  | subscribing h =>
    rw [advance, StateT.run_bind, run_isThere, pure_bind]
    dsimp only
    split <;> exact ⟨_, fs, rfl, .inl rfl⟩
  | reading h =>
    rw [advance, StateT.run_bind, run_readText, pure_bind]
    dsimp only
    split <;> exact ⟨_, fs, rfl, .inl rfl⟩
  | waiting _ | quieting _ | reloading _ _ | ended _ => exact ⟨_, fs, rfl, .inl rfl⟩

namespace State

theorem files_proceed (s : State) :
    s.proceed.files = s.files ∨ ∃ h r, s.stage.page? = some h ∧
      Saves s.files s.watch.output h.document.pageHtml r s.proceed.files := by
  unfold proceed
  split
  · split <;> exact .inl rfl
  · exact .inl rfl
  · obtain ⟨stage', fs', hrun, hfiles⟩ := s.watch.run_advance s.stage s.files
    dsimp only
    rw [hrun]
    exact hfiles

theorem watch_move (s : State) (m : Move) : (s.move m).watch = s.watch := by
  cases m with
  | proceed =>
    show s.proceed.watch = s.watch
    unfold proceed
    split
    · split <;> rfl
    · rfl
    · rfl
  | report =>
    show s.report.watch = s.watch
    unfold report
    split <;> rfl
  | edit path contents =>
    show (s.edit path contents).watch = s.watch
    unfold edit
    split <;> rfl

/-- Somebody replaces what is at the place. -/
def EditsAt (fs : FileSystem) (k : Location) (m : Move) : Prop :=
  ∃ path contents, m = .edit path contents ∧ fs.target path = .ok k

/-- A move leaves the directories, and all files but the output, the one beside it and the one that
somebody edits. -/
theorem files_move (s : State) (m : Move) :
    s.files.SameDirectories (s.move m).files ∧
      ∀ k, s.files.target s.watch.output ≠ .ok k →
        s.files.target (temporary s.watch.output) ≠ .ok k → ¬ EditsAt s.files k m →
        (s.move m).files.entry? k = s.files.entry? k := by
  cases m with
  | proceed =>
    show s.files.SameDirectories s.proceed.files ∧ ∀ k, _ → _ → _ → s.proceed.files.entry? k = _
    obtain heq | ⟨h, r, -, hs⟩ := s.files_proceed
    · rw [heq]
      exact ⟨.refl _, fun _ _ _ _ => rfl⟩
    · exact ⟨hs.sameDirectories, fun k ho ht _ => hs.elsewhere ho ht⟩
  | report =>
    have hfiles : (s.move .report).files = s.files := by
      show s.report.files = s.files
      unfold report
      split <;> rfl
    rw [hfiles]
    exact ⟨.refl _, fun _ _ _ _ => rfl⟩
  | edit path contents =>
    show s.files.SameDirectories (s.edit path contents).files ∧
      ∀ k, _ → _ → _ → (s.edit path contents).files.entry? k = _
    unfold edit
    split
    · exact ⟨.refl _, fun _ _ _ _ => rfl⟩
    · rename_i l hl
      have hfree := entry?_of_target hl
      refine ⟨sameDirectories_put hfree (by simp), fun k _ _ hk => ?_⟩
      have hkl : k ≠ l := fun h => hk ⟨path, contents, rfl, h ▸ hl⟩
      exact (entry?_put (ne_nil_of_free hfree) _).trans (if_neg hkl)

/-- So it is over a run. Since the directories stay the same, all paths lead where they led. -/
theorem files_moves (s : State) (ms : List Move) :
    s.files.SameDirectories (ms.foldl move s).files ∧
      ∀ k, s.files.target s.watch.output ≠ .ok k →
        s.files.target (temporary s.watch.output) ≠ .ok k → (∀ m ∈ ms, ¬ EditsAt s.files k m) →
        (ms.foldl move s).files.entry? k = s.files.entry? k := by
  induction ms generalizing s with
  | nil => exact ⟨.refl _, fun _ _ _ _ => rfl⟩
  | cons m ms ih =>
    obtain ⟨hmove, hentry⟩ := s.files_move m
    obtain ⟨hmoves, hrest⟩ := ih (s.move m)
    rw [watch_move] at hrest
    refine ⟨hmove.trans hmoves, fun k ho ht he => ?_⟩
    obtain ⟨hm, hms⟩ := List.forall_mem_cons.mp he
    refine Eq.trans ?_ (hentry k ho ht hm)
    refine hrest k (mt hmove.target_iff.mp ho) (mt hmove.target_iff.mp ht) fun m' hm' hk => ?_
    obtain ⟨path, contents, rfl, hk⟩ := hk
    exact hms _ hm' ⟨path, contents, rfl, hmove.target_iff.mp hk⟩

end State

end Watch

/-! ## §4 All of the program -/

/-- A watch that is not told where to write first writes the page to a file with the name of the
source and an extension of its own. -/
theorem temporary_defaultOutput {input : FilePath} {i : Location} (hi : fs.target input = .ok i) :
    temporary (defaultOutput input) = input.withExtension "tmp" := by
  obtain ⟨front, name, h⟩ := exists_endsIn hi
  exact h.withExtension_withExtension (by decide) "tmp"

/-- What the program does to files, from those that are there. -/
structure FileEffects (fs : FileSystem) : Prop where
  /-- Before a command is run, no file is changed, -/
  start : ∀ s arguments,
    (∃ o, (Command.start s arguments : FileState _).run fs = pure (.ends o, fs)) ∨
    ∃ command settings, Command.read arguments = .ok command ∧
      (Command.start s arguments : FileState _).run fs =
        (command.run s settings : FileState _).run fs
  /-- and none by a command, but where a page is rendered into a file. -/
  other : ∀ s settings (command : Command),
    (∀ input output, command ≠ .render input (some output)) →
    ∃ course, (command.run s settings : FileState _).run fs = pure (course, fs)
  render : ∀ s settings input output, ∃ o fs',
    (Command.run s settings (.render input (some output)) : FileState _).run fs =
        pure (.ends o, fs') ∧
      ((∀ markdown, fs.readText input ≠ .ok markdown) ∧ o.code ≠ 0 ∧ fs' = fs ∨
        ∃ markdown h r, fs.readText input = .ok markdown ∧
          ofMarkdown s.reader s.clipboard settings markdown = .ok h ∧ (o.code = 0 ↔ r = .ok ()) ∧
          Footprint fs output h.document.pageHtml r fs')
  /-- In each round of a watch, however it has come there, its page is written or no file is
  changed. -/
  round : ∀ w : Watch.State, w.files = fs → w.proceed.files = fs ∨
    ∃ h r, w.stage.page? = some h ∧
      Footprint fs w.watch.output h.document.pageHtml r w.proceed.files
  /-- Over many rounds, with others who edit files, all other files stay as they are. -/
  rounds : ∀ (w : Watch.State) (ms : List Watch.Move), w.files = fs → ∀ k,
    fs.target w.watch.output ≠ .ok k → fs.target (temporary w.watch.output) ≠ .ok k →
    (∀ m ∈ ms, ¬ Watch.State.EditsAt fs k m) → (ms.foldl .move w).files.entry? k = fs.entry? k
  /-- A watch that is not told where to write spares its source, unless that has the extension of a
  page or of the file that a page is first written to. -/
  unsaid : ∀ s settings input, ∃ w filter,
    (Command.run s settings (.watch input none) : FileState _).run fs =
        pure (.watches w filter, fs) ∧
      w.input = input ∧ ∀ i, fs.target input = .ok i →
        (fs.target w.output = .ok i ↔ input.HasExtension "html") ∧
        (fs.target (temporary w.output) = .ok i ↔ input.HasExtension "tmp")

/-- **What the program does to files.** -/
theorem fileEffects (fs : FileSystem) : FileEffects fs where
  start s arguments := Command.run_start s arguments fs
  other s settings _ hne := Command.run_of_ne_render s settings hne fs
  render s settings input output := by
    obtain ⟨o, fs', hrun, hnone | ⟨markdown, h, r, hread, hmade, hcode, hs⟩⟩ :=
      Command.run_render s settings input output fs
    · exact ⟨o, fs', hrun, .inl hnone⟩
    · exact ⟨o, fs', hrun, .inr ⟨markdown, h, r, hread, hmade, hcode, hs.footprint⟩⟩
  round w hfs := by
    subst hfs
    obtain heq | ⟨h, r, hpage, hs⟩ := w.files_proceed
    · exact .inl heq
    · exact .inr ⟨h, r, hpage, hs.footprint⟩
  rounds w ms hfs := by
    subst hfs
    exact (w.files_moves ms).2
  unsaid s settings input := by
    refine ⟨_, _, rfl, rfl, fun i hi => ?_⟩
    refine ⟨target_withExtension_iff_hasExtension hi (by decide), ?_⟩
    show fs.target (temporary (defaultOutput input)) = _ ↔ _
    rw [temporary_defaultOutput hi]
    exact target_withExtension_iff_hasExtension hi (by decide)

/-- A source whose name is that of the file beside its page. -/
def besideItsPage : FileSystem :=
  (FileSystem.empty "desk").put ["desk", "page.tmp"] (.file (.text "# hi\n"))

/-- Such a source is lost when its page is written, and the program says that all is well. -/
theorem source_lost :
    Command.read ["render", "page.tmp", "-o", "page.html"] =
        .ok (.render ⟨"page.tmp"⟩ (some ⟨"page.html"⟩)) ∧
      besideItsPage.target ⟨"page.tmp"⟩ ≠ besideItsPage.target ⟨"page.html"⟩ ∧
      besideItsPage.readText ⟨"page.tmp"⟩ = .ok "# hi\n" ∧
      ∃ o fs', (Command.run ⟨.direct, none, none, Markdown.read⟩ .standard
            (.render ⟨"page.tmp"⟩ (some ⟨"page.html"⟩)) : FileState _).run besideItsPage =
          pure (.ends o, fs') ∧
        o.code = 0 ∧ fs'.isThere ⟨"page.html"⟩ ∧ ¬ fs'.isThere ⟨"page.tmp"⟩ := by
  have hsource : besideItsPage.target ⟨"page.tmp"⟩ = .ok ["desk", "page.tmp"] := by decide +kernel
  have hpage : besideItsPage.target ⟨"page.html"⟩ = .ok ["desk", "page.html"] := by decide +kernel
  have hread : besideItsPage.readText ⟨"page.tmp"⟩ = .ok "# hi\n" := by decide +kernel
  refine ⟨by decide +kernel, by simp [hsource, hpage], hread, ?_⟩
  obtain ⟨o, fs', hrun, ⟨hnone, -⟩ | ⟨markdown, h, r, -, -, hcode, hs⟩⟩ :=
    Command.run_render ⟨.direct, none, none, Markdown.read⟩ .standard ⟨"page.tmp"⟩ ⟨"page.html"⟩
      besideItsPage
  · exact absurd hread (hnone _)
  have htemporary : temporary ⟨"page.html"⟩ = ⟨"page.tmp"⟩ := by decide
  have hwritten := hs.eq_ok_iff.mpr ⟨⟨_, htemporary ▸ hsource⟩, _, hpage⟩
  refine ⟨o, fs', hrun, hcode.mpr hwritten, ?_, ?_⟩
  · rw [isThere_iff (hs.sameDirectories.target hpage), hs.there hpage, if_pos hwritten]
    rfl
  · rw [isThere_iff (hs.sameDirectories.target hsource),
      hs.beside (htemporary ▸ hsource) (by decide), leftBeside, hpage]
    simp [Except.isOk, Except.toBool]

end CopyControl
