import CopyControl.Command.Watch
import CopyControl.Markdown.Reader
import CopyControl.Proofs.Command.Live

/-!
What a watch keeps current.

Somebody else writes to the source at any time, between any two steps of the watch. A change that
there is a notice of is never lost: the notices that a round forgets have come before it reads the
source, so it reads what they are about (`Sound.proceed`). But notices are asked for only after the
page has been read and written for the first time. A change that comes in between has no notice, and
if no other change follows it, the output stays behind the source for good. With that exception the
output is current whenever the watch waits and no notice is there or on its way
(`current_of_idle`).

* §1 runs
* §2 what is sure in each stage
* §3 the moves of others
* §4 the moves of the watch
* §5 idle watches
-/

namespace CopyControl.Watch

open Document FileSystem Markdown

/-! ## §1 Runs -/

/-- The page has been read, and no notices come yet. -/
def Stage.isDeaf : Stage → Bool
  | .saving _ => true
  | .subscribing _ => true
  | _ => false

/-- What is to be remembered of a run. -/
structure History where
  /-- The source as it was first read. -/
  first : Option String
  /-- Whether the last edit came when the page had been read and no notices came yet. -/
  missed : Bool
deriving DecidableEq, Repr, Inhabited

/-- What is to be remembered after a move. -/
def History.after (y : History) (s : State) : Move → History
  | .proceed =>
    match s.stage with
    | .opening => { y with first := (s.files.readText s.watch.input).toOption }
    | _ => y
  | .report => y
  | .edit _ _ => { y with missed := s.stage.isDeaf }

/-- Whoever edits a file writes a text to the source. -/
def Move.KeepsTo (input : FilePath) : Move → Prop
  | .edit path contents => path = input ∧ ∃ text, contents = .text text
  | _ => True

/-- A watch from its start, while others write to the source. -/
inductive Run (w : Watch) (fs : FileSystem) : State → History → Prop
  | start : Run w fs (.start w fs) ⟨none, false⟩
  | move {s : State} {y : History} (hr : Run w fs s y) {m : Move} (hm : m.KeepsTo w.input) :
      Run w fs (s.move m) (y.after s m)

/-- The source can be read and written, and the output can be written, at another place. The file
that the page is first written to is not the source either. -/
structure Watchable (w : Watch) (source temporary output : Location) (fs : FileSystem) : Prop where
  atSource : fs.target w.input = .ok source
  atTemporary : fs.target (LivePage.temporary w.output) = .ok temporary
  atOutput : fs.target w.output = .ok output
  temporary_ne : temporary ≠ source
  output_ne : output ≠ source
  readable : ∃ markdown, fs.readText w.input = .ok markdown

/-- The HTML has the head of the page that was built from the first source, and the body of a page
from the source now, as a pass leaves it. -/
def Renders (w : Watch) (first markdown html : String) : Prop :=
  ∃ d₀ d, buildPage (w.reader first) ⟨w.settings.stylesheet⟩ = .ok d₀ ∧
    buildPage (w.reader markdown) ⟨w.settings.stylesheet⟩ = .ok d ∧
    html = "<!DOCTYPE html>\n<html>" ++ d₀.outerHtml d₀.head ++
      LivePage.bodyHtml d LivePage.clipboardName ++ "</html>\n"

variable {w : Watch} {source temporary output : Location} {fs fs' : FileSystem}
  {s s' : State} {y : History} {h h' : Host} {first markdown : String}

/-! ## §2 What is sure in each stage -/

/-- The page was first built from the source `first`, and is live. -/
def Keeps (w : Watch) (first : String) (h : Host) : Prop :=
  ∃ d₀, buildPage (w.reader first) ⟨w.settings.stylesheet⟩ = .ok d₀ ∧ h.Live d₀

theorem Keeps.rests (hk : w.Keeps first h) (hr : h.Rests h') : w.Keeps first h' := by
  obtain ⟨d₀, hd₀, hl⟩ := hk
  exact ⟨d₀, hd₀, hl.rests hr⟩

theorem Keeps.shows_rests {events : List Event} (hk : w.Keeps first h) (hs : h.Shows events)
    (hr : h.Rests h') : h'.Shows events := by
  obtain ⟨d₀, -, hl⟩ := hk
  exact hs.rests hl hr

theorem Keeps.renders (hk : w.Keeps first h) (hs : h.Shows (w.reader markdown)) :
    w.Renders first markdown h.document.pageHtml := by
  obtain ⟨d₀, hd₀, hl⟩ := hk
  obtain ⟨d, hd, -⟩ := buildPage_spec (w.reader markdown) ⟨w.settings.stylesheet⟩
  exact ⟨d₀, d, hd₀, hd, LivePage.pageHtml_of_live hl hs hd _⟩

/-- The source holds the text, or there will be a notice. Only an edit that nobody is told of is an
exception: then it is the text that was read first. -/
def Latest (w : Watch) (fs : FileSystem) (pending : Prop) (missed : Bool)
    (first markdown : String) : Prop :=
  if missed then markdown = first ∧ ¬ pending
  else fs.readText w.input = .ok markdown ∨ pending

theorem Latest.imp {pending : Prop} {missed : Bool}
    (hl : w.Latest fs pending missed first markdown)
    (hf : fs.readText w.input = .ok markdown → fs'.readText w.input = .ok markdown) :
    w.Latest fs' pending missed first markdown := by
  cases missed with
  | true => exact hl
  | false => exact Or.imp_left hf hl

/-- If no notice is there or on its way, it is known which text it is. -/
theorem Latest.eq_of_quiet {pending : Prop} {missed : Bool} {now : String}
    (hl : w.Latest fs pending missed first markdown) (hquiet : ¬ pending)
    (hnow : fs.readText w.input = .ok now) : markdown = if missed then first else now := by
  cases missed with
  | true => exact hl.1
  | false => exact Except.ok.inj ((Or.resolve_right hl hquiet).symm.trans hnow)

/-- What is sure of the page in each stage. -/
def Sure (w : Watch) (fs : FileSystem) (pending : Prop) (missed : Bool) (first : String) :
    Stage → Prop
  | .opening => False
  | .saving h => w.Keeps first h ∧ h.Shows (w.reader first) ∧ ¬ pending ∧
      (missed ∨ fs.readText w.input = .ok first)
  | .subscribing h => w.Keeps first h ∧ h.Shows (w.reader first) ∧ ¬ pending ∧
      (missed ∨ fs.readText w.input = .ok first) ∧
      fs.readText w.output = .ok h.document.pageHtml
  | .waiting h => w.Keeps first h ∧
      (∃ markdown, h.Shows (w.reader markdown) ∧ w.Latest fs pending missed first markdown) ∧
      fs.readText w.output = .ok h.document.pageHtml
  | .quieting h => w.Keeps first h ∧ missed = false
  | .reading h => w.Keeps first h ∧ missed = false
  | .reloading h markdown => w.Keeps first h ∧ missed = false ∧
      w.Latest fs pending missed first markdown
  | .resaving h => w.Keeps first h ∧ missed = false ∧
      ∃ markdown, h.Shows (w.reader markdown) ∧ w.Latest fs pending missed first markdown
  | .ended _ => False

/-- A notice of a change is there or on its way. -/
def State.IsPending (s : State) : Prop :=
  0 < s.notices ∨ 0 < s.unreported

/-- What is sure of a watch: the page has not been read yet, or it is known what was read first. -/
structure Sound (w : Watch) (source temporary output : Location) (s : State) (y : History) :
    Prop where
  watch : s.watch = w
  files : w.Watchable source temporary output s.files
  stage : (s.stage = .opening ∧ ¬ s.IsPending) ∨
    ∃ first, y.first = some first ∧ w.Sure s.files s.IsPending y.missed first s.stage

/-! ## §3 The moves of others -/

/-- A report turns a change that there will be a notice of into a notice. -/
theorem State.isPending_report (s : State) : s.report.IsPending = s.IsPending := by
  unfold report IsPending
  split
  · rfl
  · exact propext (by dsimp only; omega)

theorem Sound.report (hs : Sound w source temporary output s y) :
    Sound w source temporary output s.report y := by
  have hkeep : s.report.stage = s.stage ∧ s.report.watch = s.watch ∧ s.report.files = s.files := by
    unfold State.report
    split <;> exact ⟨rfl, rfl, rfl⟩
  obtain ⟨hstage, hw, hf⟩ := hkeep
  refine ⟨hw.trans hs.watch, hf ▸ hs.files, ?_⟩
  rw [s.isPending_report, hstage, hf]
  exact hs.stage

theorem Watchable.of_sameDirectories (hw : w.Watchable source temporary output fs)
    (hsame : fs.SameDirectories fs') (hm : fs'.readText w.input = .ok markdown) :
    w.Watchable source temporary output fs' where
  atSource := hsame.target hw.atSource
  atTemporary := hsame.target hw.atTemporary
  atOutput := hsame.target hw.atOutput
  temporary_ne := hw.temporary_ne
  output_ne := hw.output_ne
  readable := ⟨markdown, hm⟩

/-- A text that is put into the source is read there, and in the output is what was there. -/
theorem Watchable.put (hw : w.Watchable source temporary output fs) (text : String)
    (hf : fs' = fs.put source (.file (.text text))) :
    w.Watchable source temporary output fs' ∧ fs'.readText w.input = .ok text ∧
      ∀ html, fs.readText w.output = .ok html → fs'.readText w.output = .ok html := by
  have hfree := entry?_of_target hw.atSource
  have hsame : fs.SameDirectories fs' := hf ▸ sameDirectories_put hfree (by simp)
  have hentry : ∀ k, fs'.entry? k =
      if k = source then some (.file (.text text)) else fs.entry? k := fun k => by
    rw [hf, entry?_put (ne_nil_of_free hfree)]
  have hread : fs'.readText w.input = .ok text := by
    rw [readText_iff (hsame.target hw.atSource), hentry, if_pos rfl]
  refine ⟨hw.of_sameDirectories hsame hread, hread, fun html hhtml => ?_⟩
  rw [readText_iff (hsame.target hw.atOutput), hentry, if_neg hw.output_ne]
  exact (readText_iff hw.atOutput).mp hhtml

/-- After an edit there will be a notice, if notices come. -/
theorem Sure.edit {pending pending' : Prop} {missed : Bool} {stage : Stage}
    (hs : w.Sure fs pending missed first stage)
    (hp : pending' ↔ if stage.isSubscribed then True else pending)
    (hout : ∀ html, fs.readText w.output = .ok html → fs'.readText w.output = .ok html) :
    w.Sure fs' pending' stage.isDeaf first stage := by
  cases stage with
  | opening | ended _ => exact hs
  | saving h =>
    obtain ⟨hk, hshows, hquiet, -⟩ := hs
    exact ⟨hk, hshows, fun h => hquiet (hp.mp h), .inl rfl⟩
  | subscribing h =>
    obtain ⟨hk, hshows, hquiet, -, hwritten⟩ := hs
    exact ⟨hk, hshows, fun h => hquiet (hp.mp h), .inl rfl, hout _ hwritten⟩
  | waiting h =>
    obtain ⟨hk, ⟨markdown, hshows, -⟩, hwritten⟩ := hs
    exact ⟨hk, ⟨markdown, hshows, .inr (hp.mpr trivial)⟩, hout _ hwritten⟩
  | quieting h | reading h => exact ⟨hs.1, rfl⟩
  | reloading h markdown => exact ⟨hs.1, rfl, .inr (hp.mpr trivial)⟩
  | resaving h =>
    obtain ⟨hk, -, markdown, hshows, -⟩ := hs
    exact ⟨hk, rfl, markdown, hshows, .inr (hp.mpr trivial)⟩

theorem Sound.edit (hs : Sound w source temporary output s y) (text : String) :
    Sound w source temporary output (s.edit w.input (.text text))
      (y.after s (.edit w.input (.text text))) := by
  have hedit : s.edit w.input (.text text) = { s with
      files := s.files.put source (.file (.text text))
      unreported := if s.stage.isSubscribed then s.unreported + 1 else s.unreported } := by
    rw [State.edit, hs.files.atSource, hs.watch, hs.files.atSource]
    simp [Except.toOption]
  obtain ⟨hfiles, -, hout⟩ := hs.files.put text rfl
  rw [hedit]
  refine ⟨hs.watch, hfiles, ?_⟩
  have hp : State.IsPending { s with
      files := s.files.put source (.file (.text text))
      unreported := if s.stage.isSubscribed then s.unreported + 1 else s.unreported } ↔
      if s.stage.isSubscribed then True else s.IsPending := by
    unfold State.IsPending
    dsimp only
    split <;> simp
  obtain ⟨hopening, hquiet⟩ | ⟨first, hfirst, hsure⟩ := hs.stage
  · refine .inl ⟨hopening, fun h => hquiet ?_⟩
    simpa [hopening, Stage.isSubscribed] using hp.mp h
  · exact .inr ⟨first, hfirst, hsure.edit hp hout⟩

/-! ## §4 The moves of the watch -/

section advance
variable {pending : Prop} {missed : Bool} {stage : Stage}

/-- To write the page leaves the source as it is. -/
theorem Watchable.save (hw : w.Watchable source temporary output fs) (h : Host) :
    ∃ fs', (LivePage.save h w.output : FileState _).run fs = pure (.ok (), fs') ∧
      w.Watchable source temporary output fs' ∧
      fs'.readText w.output = .ok h.document.pageHtml ∧
      ∀ markdown, fs.readText w.input = .ok markdown → fs'.readText w.input = .ok markdown := by
  obtain ⟨fs', hrun, hsame, hwritten, hentry⟩ :=
    LivePage.run_save (h := h) hw.atTemporary hw.atOutput
  have hkeep : ∀ markdown, fs.readText w.input = .ok markdown →
      fs'.readText w.input = .ok markdown := fun markdown hm => by
    rw [readText_iff (hsame.target hw.atSource),
      hentry source hw.temporary_ne.symm hw.output_ne.symm]
    exact (readText_iff hw.atSource).mp hm
  obtain ⟨markdown, hm⟩ := hw.readable
  exact ⟨fs', hrun, hw.of_sameDirectories hsame (hkeep markdown hm), hwritten, hkeep⟩

/-- The first reading succeeds, whatever the source is. -/
theorem run_advance_opening (hm : fs.readText w.input = .ok markdown) :
    ∃ h, (w.advance .opening : FileState Stage).run fs = pure (.saving h, fs) ∧
      w.Keeps markdown h ∧ h.Shows (w.reader markdown) := by
  obtain ⟨d₀, h, hd₀, hh, hl, hs⟩ :=
    LivePage.ofMarkdown_spec w.reader w.clipboard w.settings markdown
  refine ⟨h, ?_, ⟨d₀, hd₀, hl⟩, hs⟩
  rw [advance, StateT.run_bind, LivePage.run_load hm hh, pure_bind]
  rfl

/-- Once notices come, the page is that of the text that was read first. If the source has another
one, that is because of an edit that was missed. -/
theorem Sure.subscribe (hs : w.Sure fs pending missed first (.subscribing h)) :
    w.Sure fs pending missed first (.waiting (w.announce h)) := by
  obtain ⟨hk, hshows, hquiet, hheld, hwritten⟩ := hs
  have hannounce : h.Rests (w.announce h) ∧ (w.announce h).document = h.document := by
    unfold announce
    split
    · exact ⟨(h.rests_record _).trans (Host.rests_record _ _), rfl⟩
    · exact ⟨h.rests_record _, rfl⟩
  have hlatest : w.Latest fs pending missed first first := by
    cases missed with
    | true => exact ⟨rfl, hquiet⟩
    | false => exact .inl (by simpa using hheld)
  exact ⟨hk.rests hannounce.1, ⟨first, hk.shows_rests hshows hannounce.1, hlatest⟩,
    by rw [hannounce.2, hwritten]⟩

/-- If there is a notice, the last edit was not missed. -/
theorem Sure.of_pending (hs : w.Sure fs pending missed first (.waiting h)) (hp : pending) :
    w.Keeps first h ∧ missed = false := by
  obtain ⟨hk, ⟨markdown, -, hlatest⟩, -⟩ := hs
  cases missed with
  | true => exact absurd hp hlatest.2
  | false => exact ⟨hk, rfl⟩

/-- To wait for quiet leaves a page as it is. -/
theorem Keeps.sleep (hk : w.Keeps first h) (ms : Nat) : w.Keeps first (h.sleep ms) := by
  obtain ⟨d₀, hd₀, hl⟩ := hk
  exact ⟨d₀, hd₀, hl.rests (hl.rests_sleep ms)⟩

/-- From stage to stage, what is sure stays so, and nothing fails. -/
theorem Sure.advance (hs : w.Sure fs pending missed first stage)
    (hw : w.Watchable source temporary output fs) :
    ∃ stage' fs', (w.advance stage : FileState Stage).run fs = pure (stage', fs') ∧
      w.Watchable source temporary output fs' ∧ w.Sure fs' pending missed first stage' := by
  cases stage with
  | opening | ended _ => exact absurd hs id
  | waiting h | quieting h => exact ⟨_, fs, rfl, hw, hs⟩
  | saving h =>
    obtain ⟨hk, hshows, hquiet, hheld⟩ := hs
    obtain ⟨fs', hrun, hw', hwritten, hkeep⟩ := hw.save h
    refine ⟨.subscribing h, fs', ?_, hw', hk, hshows, hquiet, hheld.imp_right (hkeep first),
      hwritten⟩
    rw [Watch.advance, StateT.run_bind, hrun, pure_bind]
    rfl
  | subscribing h =>
    obtain ⟨markdown, hm⟩ := hw.readable
    refine ⟨.waiting (w.announce h), fs, ?_, hw, hs.subscribe⟩
    rw [Watch.advance, StateT.run_bind, run_isThere, isThere_of_readText hm, pure_bind]
    rfl
  | reading h =>
    obtain ⟨hk, rfl⟩ := hs
    obtain ⟨markdown, hm⟩ := hw.readable
    refine ⟨.reloading h markdown, fs, ?_, hw, hk, rfl, .inl hm⟩
    rw [Watch.advance, StateT.run_bind, run_readText, hm, pure_bind]
    rfl
  | reloading h markdown =>
    obtain ⟨⟨d₀, hd₀, hl⟩, rfl, hlatest⟩ := hs
    obtain ⟨h', hreload, hl', hshows⟩ := LivePage.reload_spec w.reader hl markdown
    refine ⟨.resaving h', fs, ?_, hw, ⟨d₀, hd₀, hl'⟩, rfl, markdown, hshows, hlatest⟩
    rw [Watch.advance, hreload]
    rfl
  | resaving h =>
    obtain ⟨hk, rfl, markdown, hshows, hlatest⟩ := hs
    obtain ⟨fs', hrun, hw', hwritten, hkeep⟩ := hw.save h
    refine ⟨.waiting h, fs', ?_, hw', hk, ⟨markdown, hshows, hlatest.imp (hkeep markdown)⟩,
      hwritten⟩
    rw [Watch.advance, StateT.run_bind, hrun, pure_bind]
    rfl

end advance

/-- Where nothing is waited for, the watch goes on to the next stage. -/
theorem State.proceed_eq {stage : Stage} (hwaiting : ∀ h, s.stage ≠ .waiting h)
    (hquieting : ∀ h, s.stage ≠ .quieting h)
    (hrun : (s.watch.advance s.stage : FileState Stage).run s.files = pure (stage, fs')) :
    s.proceed = { s with stage := stage, files := fs' } := by
  unfold State.proceed
  split
  · rename_i h hstage
    exact absurd hstage (hwaiting h)
  · rename_i h hstage
    exact absurd hstage (hquieting h)
  · dsimp only
    rw [hrun]
    rfl

/-- A move of the watch keeps what is sure. The notices that are forgotten on the way have come
before the source is read. -/
theorem Sound.proceed (hs : Sound w source temporary output s y) :
    Sound w source temporary output s.proceed (y.after s .proceed) := by
  obtain ⟨rfl, hw, ⟨hstage, hquiet⟩ | ⟨first, hfirst, hsure⟩⟩ := hs
  · obtain ⟨markdown, hm⟩ := hw.readable
    obtain ⟨h, hrun, hk, hshows⟩ := run_advance_opening hm
    have hproceed : s.proceed = { s with stage := .saving h, files := s.files } :=
      State.proceed_eq (by simp [hstage]) (by simp [hstage]) (hstage ▸ hrun)
    rw [hproceed, History.after, hstage, hm]
    exact ⟨rfl, hw, .inr ⟨markdown, rfl, hk, hshows, hquiet, .inr hm⟩⟩
  -- what was read first is known, and nothing is added to it
  have hafter : y.after s .proceed = y := by
    rw [History.after]
    split
    · rename_i hstage
      simp [hstage, Sure] at hsure
    · rfl
  rw [hafter]
  cases hstage : s.stage with
  | waiting h =>
    unfold State.proceed
    rw [hstage]
    dsimp only
    split
    · exact ⟨rfl, hw, .inr ⟨first, hfirst, hsure⟩⟩
    · rename_i hnotice
      rw [hstage] at hsure
      have htold := hsure.of_pending (.inl (Nat.pos_of_ne_zero hnotice))
      exact ⟨rfl, hw, .inr ⟨first, hfirst, htold⟩⟩
  | quieting h =>
    unfold State.proceed
    rw [hstage] at hsure ⊢
    exact ⟨rfl, hw, .inr ⟨first, hfirst, hsure.1.sleep _, hsure.2⟩⟩
  | opening | saving _ | subscribing _ | reading _ | reloading _ _ | resaving _ | ended _ =>
    obtain ⟨stage, fs', hrun, hw', hsure'⟩ := hsure.advance hw
    rw [State.proceed_eq (by simp [hstage]) (by simp [hstage]) hrun]
    exact ⟨rfl, hw', .inr ⟨first, hfirst, hsure'⟩⟩

/-! ## §5 Idle watches -/

theorem Run.sound (hr : Run w fs s y) (hw : w.Watchable source temporary output fs) :
    Sound w source temporary output s y := by
  induction hr with
  | start => exact ⟨rfl, hw, .inl ⟨rfl, by simp [State.IsPending, State.start]⟩⟩
  | @move s y _ m hm ih =>
    cases m with
    | proceed => exact ih.proceed
    | report => exact ih.report
    | edit path contents =>
      obtain ⟨rfl, text, rfl⟩ := hm
      exact ih.edit text

/-- **A watch keeps its output current.** Let others write texts to the source at any time. Then the
watch never ends, and whenever it waits and no notice of a change is there or on its way, the output
has the head of the page as it was first read, and the body that a pass makes of a fresh page from
what the source now holds, unless the last edit came after the first reading and before notices of
changes were asked for. Then the output has the body of the source as it was first read. -/
theorem current_of_idle (hr : Run w fs s y) (hw : w.Watchable source temporary output fs) :
    (∀ f, s.stage ≠ .ended f) ∧ (s.isIdle → ∃ first now html, y.first = some first ∧
      s.files.readText w.input = .ok now ∧ s.files.readText w.output = .ok html ∧
      w.Renders first (if y.missed then first else now) html) := by
  obtain ⟨hwatch, hw', hstage⟩ := hr.sound hw
  refine ⟨fun f hf => ?_, fun hidle => ?_⟩
  · obtain ⟨hopening, -⟩ | ⟨first, -, hsure⟩ := hstage
    · simp [hopening] at hf
    · simp [hf, Sure] at hsure
  obtain ⟨hopening, -⟩ | ⟨first, hfirst, hsure⟩ := hstage
  · simp [State.isIdle, hopening] at hidle
  unfold State.isIdle at hidle
  split at hidle
  · rename_i h hwaiting
    rw [hwaiting] at hsure
    obtain ⟨hk, ⟨markdown, hshows, hlatest⟩, hwritten⟩ := hsure
    have hquiet : ¬ s.IsPending := by
      simp only [Bool.and_eq_true, decide_eq_true_eq] at hidle
      simp [State.IsPending, hidle]
    obtain ⟨now, hnow⟩ := hw'.readable
    refine ⟨first, now, _, hfirst, hnow, hwritten, ?_⟩
    rw [← hlatest.eq_of_quiet hquiet hnow]
    exact hk.renders hshows
  · rename_i f hended
    simp [hended, Sure] at hsure
  · cases hidle

/-- A source in a directory, and a watch of it. -/
def desk : FileSystem :=
  (FileSystem.empty "desk").put ["desk", "a.md"] (.file (.text "x"))

def deskWatch : Watch :=
  ⟨⟨"a.md"⟩, ⟨"a.html"⟩, .standard, .direct, Markdown.read⟩

theorem watchable_desk :
    deskWatch.Watchable ["desk", "a.md"] ["desk", "a.tmp"] ["desk", "a.html"] desk where
  atSource := by decide +kernel
  atTemporary := by decide +kernel
  atOutput := by decide +kernel
  temporary_ne := by decide
  output_ne := by decide
  readable := ⟨"x", by decide +kernel⟩

/-- The source is edited before notices of changes are asked for, -/
def earlyEdit : List Move :=
  [.proceed, .edit ⟨"a.md"⟩ (.text "y"), .proceed, .proceed]

/-- and while the watch waits for them. -/
def lateEdit : List Move :=
  [.proceed, .proceed, .proceed, .edit ⟨"a.md"⟩ (.text "y"), .report, .proceed, .proceed, .proceed,
    .proceed, .proceed]

/-- The end of a run, and what is to be remembered of it. -/
def outcome (w : Watch) (fs : FileSystem) (ms : List Move) : State × History :=
  ms.foldl (fun p m => (p.1.move m, p.2.after p.1 m)) (.start w fs, ⟨none, false⟩)

theorem run_outcome {ms : List Move} (hms : ∀ m ∈ ms, m.KeepsTo w.input) :
    Run w fs (w.outcome fs ms).1 (w.outcome fs ms).2 := by
  induction ms using List.reverseRecOn with
  | nil => exact .start
  | append_singleton ms m ih =>
    obtain ⟨hms, hm⟩ := List.forall_mem_append.mp hms
    rw [outcome, List.foldl_append]
    exact (ih hms).move (hm m (List.mem_singleton_self m))

/-- A late edit is in the output. -/
theorem current_of_idle_lateEdit :
    let s := (deskWatch.outcome desk lateEdit).1
    s.isIdle ∧ s.files.readText deskWatch.input = .ok "y" ∧
      ∃ html, s.files.readText deskWatch.output = .ok html ∧
        deskWatch.Renders "x" "y" html := by
  intro s
  have hr : Run deskWatch desk s ⟨some "x", false⟩ := by
    have hy : (deskWatch.outcome desk lateEdit).2 = ⟨some "x", false⟩ := by decide +kernel
    rw [← hy]
    exact run_outcome (by simp [lateEdit, Move.KeepsTo, deskWatch])
  have hidle : s.isIdle = true := by decide +kernel
  have hnow : s.files.readText deskWatch.input = .ok "y" := by decide +kernel
  obtain ⟨first, now, html, hfirst, hnow', hhtml, hrenders⟩ :=
    (current_of_idle hr watchable_desk).2 hidle
  obtain rfl := Option.some.inj hfirst
  obtain rfl := Except.ok.inj (hnow.symm.trans hnow')
  exact ⟨hidle, hnow, html, hhtml, hrenders⟩

/-- What a page ends in is told by its source. -/
theorem Renders.isSuffix {d : Document} {html : String} (hr : w.Renders first markdown html)
    (hd : buildPage (w.reader markdown) ⟨w.settings.stylesheet⟩ = .ok d) :
    (LivePage.bodyHtml d LivePage.clipboardName).toList ++ "</html>\n".toList <:+
      html.toList := by
  obtain ⟨d₀, d', -, hd', rfl⟩ := hr
  obtain rfl := Except.ok.inj (hd.symm.trans hd')
  refine ⟨("<!DOCTYPE html>\n<html>" ++ d₀.outerHtml d₀.head).toList, ?_⟩
  simp only [String.toList_append, List.append_assoc]

/-- An early edit is not, although the watch waits and nothing more will be told of it. -/
theorem not_current_earlyEdit :
    let s := (deskWatch.outcome desk earlyEdit).1
    deskWatch.Watchable ["desk", "a.md"] ["desk", "a.tmp"] ["desk", "a.html"] desk ∧
      Run deskWatch desk s (deskWatch.outcome desk earlyEdit).2 ∧ s.isIdle ∧
      s.stage.isSubscribed ∧ s.files.readText deskWatch.input = .ok "y" ∧
      ∀ first html, s.files.readText deskWatch.output = .ok html →
        ¬ deskWatch.Renders first "y" html := by
  intro s
  refine ⟨watchable_desk, run_outcome (by simp [earlyEdit, Move.KeepsTo, deskWatch]),
    by decide +kernel, by decide +kernel, by decide +kernel, fun first html hhtml hr => ?_⟩
  have hstale : s.files.readText deskWatch.output = .ok ("<!DOCTYPE html>\n<html>" ++
      "<head><meta charset=\"utf-8\"></head><body><p>x</p></body></html>\n") := by
    decide +kernel
  have hbody : (buildPage (Markdown.read "y") ⟨none⟩).toOption.map
      (LivePage.bodyHtml · LivePage.clipboardName) = some "<body><p>y</p></body>" := by
    decide +kernel
  obtain ⟨d, hd, -⟩ := buildPage_spec (Markdown.read "y") ⟨none⟩
  have hsuffix := hr.isSuffix hd
  rw [hd] at hbody
  have hbody : LivePage.bodyHtml d LivePage.clipboardName = "<body><p>y</p></body>" :=
    Option.some.inj hbody
  rw [hbody, ← Except.ok.inj (hstale.symm.trans hhtml)] at hsuffix
  revert hsuffix
  decide

end CopyControl.Watch
