import CopyControl.Proofs.Command.Saving
import CopyControl.Proofs.Host.Bounded
import CopyControl.Proofs.Host.Once

/-!
Live pages, as the commands keep them.

A live page has one session, and whenever it is left alone its last pass has been run: what is still
queued is work of the session, and that finds a settled document. So waiting changes nothing that is
written to a file (`Live.rests_sleep`), and what is written is told by the source that was read
last: the head is the one that the page was built with, and the body is what a pass makes of a body
from the source (`ofMarkdown_spec`, `reload_spec`). The HTML is the two of them in a frame
(`pageHtml_eq`). None of this depends on how a source is read.

* §1 head and body
* §2 hosts that are left alone
* §3 live pages
* §4 pages from a source
* §5 pages in files
-/

namespace CopyControl

open Document Markdown FileSystem

/-! ## §1 Head and body -/

namespace Document

variable {d d' d₀ : Document} {head : NodeId}

/-- Over a settled document, passes change nothing. -/
theorem Passes.sameArena (hw : d.WellFormed) (hs : d.Settled) (hp : Passes d d') :
    d.SameArena d' := by
  induction hp with
  | refl => exact ⟨rfl, rfl, rfl, rfl⟩
  | tail _ hstep ih =>
    cases hstep with
    | same h => exact ih.trans h
    | pass clipboard =>
      rw [(enhance_of_settled (ih.wellFormed hw) (hs.congr hw ih) clipboard).1]
      exact ih

/-- The page has the head of the page `d₀` and a body that is new from the events. -/
structure Built (d₀ : Document) (events : List Event) (d : Document) : Prop where
  page : d.IsPage d₀.head
  head : d.shape? d₀.head = d₀.shape? d₀.head
  body : d.shape? d.body = some (.node default (.element (.ofTag "body")) (sketch events))

/-- A new body leaves the head. -/
theorem IsPage.built_replaceBody (h : d.IsPage d₀.head)
    (hhead : d.shape? d₀.head = d₀.shape? d₀.head) (events : List Event) :
    (Markdown.replaceBody events).Gives d fun _ d' => Built d₀ events d' := by
  obtain ⟨n, d', heq, hpage, hbody⟩ := h.replaceBody events
  obtain ⟨nodes, d₁, hp, -, heq'⟩ := h.replaceBody_eq events
  refine ⟨n, d', heq, hpage, ?_, hbody⟩
  rw [← hhead, ← hp.shape?_head h]
  exact congrArg (·.2.shape? d₀.head) (heq.symm.trans heq')

theorem html_root (t u : Tree) : (Tree.node default (.element (.ofTag "html")) [t, u]).html =
    "<html>".toList ++ t.html ++ u.html ++ "</html>".toList := by
  rw [ofTag_eq (by decide)]
  simp [Tree.html, Tree.htmls, Html.voidElements, Html.startTag, Html.endTag,
    Html.writtenAttributes]

theorem outerHtml_of_shape? {x : NodeId} {t : Tree} (h : d.shape? x = some t) :
    d.outerHtml x = .ofList t.html := by
  rw [outerHtml_eq, h]
  rfl

/-- What is written of a page. -/
theorem IsPage.pageHtml_eq (h : d.IsPage head) :
    d.pageHtml =
      "<!DOCTYPE html>\n<html>" ++ d.outerHtml head ++ d.outerHtml d.body ++ "</html>\n" := by
  have hw := h.wellFormed
  have hshape : ∀ x, d.contains x → ∃ t, d.shape? x = some t := fun x hx => by
    obtain ⟨k, hk⟩ := Option.isSome_iff_exists.mp ((kind?_isSome d x).trans hx)
    exact ⟨_, shape?_eq hw hk⟩
  obtain ⟨t, ht⟩ := hshape head h.contains_head
  obtain ⟨u, hu⟩ := hshape d.body (contains_of_kind? h.body)
  have hroot : d.shape? d.root = some (.node default (.element (.ofTag "html")) [t, u]) := by
    refine shape?_of_depicts hw h.root ?_
    rw [h.parts]
    exact depicts_cons.mpr ⟨ht, depicts_cons.mpr ⟨hu, depicts_nil d⟩⟩
  show "<!DOCTYPE html>\n" ++ d.outerHtml d.root ++ "\n" = _
  rw [outerHtml_of_shape? hroot, outerHtml_of_shape? ht, outerHtml_of_shape? hu, html_root,
    ← String.toList_inj]
  simp

end Document

/-! ## §2 Hosts that are left alone -/

namespace Host

variable {h h' h'' : Host} {d₀ : Document} {events : List Event}

/-- Nothing has happened that is seen or that a timer was set for. -/
structure Rests (h h' : Host) : Prop where
  arena : h.document.SameArena h'.document
  sessions : h'.sessions = h.sessions
  timers : h'.timers = h.timers
  queue : ∀ w ∈ h'.queue, w ∈ h.queue ∨ w.control? = none

theorem rests_of_calm (ha : h.document.SameArena h'.document) (hs : h'.sessions = h.sessions)
    (hc : h.Calm h') : h.Rests h' := by
  obtain ⟨ws, hq, hws⟩ := hc.queue
  refine ⟨ha, hs, hc.timers, fun w hw => ?_⟩
  rw [hq] at hw
  exact (List.mem_append.mp hw).imp_right (hws w)

theorem Calm.forall_queue (hc : h.Calm h') (hq : ∀ w ∈ h.queue, w.control? = none) :
    ∀ w ∈ h'.queue, w.control? = none := by
  obtain ⟨ws, heq, hws⟩ := hc.queue
  rw [heq]
  exact List.forall_mem_append.mpr ⟨hq, hws⟩

theorem Rests.refl (h : Host) : h.Rests h :=
  rests_of_calm ⟨rfl, rfl, rfl, rfl⟩ rfl (.refl h)

theorem Rests.trans (hr : h.Rests h') (hr' : h'.Rests h'') : h.Rests h'' where
  arena := hr.arena.trans hr'.arena
  sessions := hr'.sessions.trans hr.sessions
  timers := hr'.timers.trans hr.timers
  queue w hw := (hr'.queue w hw).elim (hr.queue w) .inr

theorem rests_record (h : Host) (e : LogEntry) : h.Rests (h.record e) :=
  rests_of_calm ⟨rfl, rfl, rfl, rfl⟩ rfl (calm_of_eq rfl rfl rfl)

/-- A ready document is enhanced when its first session is attached. -/
theorem attach_first {clipboard : String} (hs : h.sessions = [.waiting clipboard true])
    (hr : h.document.ready = .complete) :
    (h.document.enhance clipboard).document.SameArena (h.attach 0).document ∧
      ∃ c o, (h.attach 0).sessions = [.observing c o] := by
  have hi : h.sessions[0]? = some (.waiting clipboard true) := by
    rw [hs]
    rfl
  rw [attach_of_waiting hi, if_pos hr, ← enhance_document h clipboard]
  have hsessions : (h.enhance clipboard).2.sessions = [.waiting clipboard true] :=
    (h.pass clipboard).2.wake_spec.2.1.trans hs
  generalize (h.enhance clipboard).1 = summary
  generalize (h.enhance clipboard).2 = h' at *
  refine ⟨sameArena_observeBody (h'.record _) 0 clipboard true, clipboard,
    h'.document.mailboxes.size, ?_⟩
  show h'.sessions.set 0 (.observing clipboard h'.document.mailboxes.size) = _
  rw [hsessions]
  rfl

/-! ## §3 Live pages -/

/-- The page is kept enhanced by its only session, and nothing is under way. The head is that of the
page as it was built, as `d₀`. -/
structure Live (d₀ : Document) (h : Host) : Prop where
  page : h.document.IsPage d₀.head
  head : h.document.shape? d₀.head = d₀.shape? d₀.head
  settled : h.document.Settled
  session : ∃ clipboard o, h.sessions = [.observing clipboard o]
  timers : h.timers = []
  queue : ∀ w ∈ h.queue, w.control? = none

/-- What a pass makes of a body from the events. -/
def enhancedBody (events : List Event) : Tree :=
  (Tree.node default (.element (.ofTag "body")) (sketch events)).enhanced

/-- The body is up to date with the events. -/
def Shows (h : Host) (events : List Event) : Prop :=
  h.document.shape? h.document.body = some (enhancedBody events)

theorem Live.rests (hl : h.Live d₀) (hr : h.Rests h') : h'.Live d₀ where
  page := hl.page.sameArena hr.arena
  head := (hr.arena.shape? hl.page.wellFormed _).trans hl.head
  settled := hl.settled.congr hl.page.wellFormed hr.arena
  session := hr.sessions ▸ hl.session
  timers := hr.timers.trans hl.timers
  queue w hw := (hr.queue w hw).elim (hl.queue w) id

theorem Shows.rests (hs : h.Shows events) (hl : h.Live d₀) (hr : h.Rests h') :
    h'.Shows events := by
  have hb : h'.document.body = h.document.body := congrArg Prod.snd hr.arena.landmarks
  rw [Shows, hb, hr.arena.shape? hl.page.wellFormed]
  exact hs

/-- Work that is queued for a live page changes nothing. -/
theorem Live.rests_run (hl : h.Live d₀) {w : Work} (hw : w.control? = none) :
    h.Rests (h.run w) := by
  cases w with
  | click _ _ _ _ | write _ _ _ _ _ | armRevert _ | revert _ => cases hw
  | note n text => exact rests_of_calm ⟨rfl, rfl, rfl, rfl⟩ rfl (calm_of_eq rfl rfl rfl)
  | attach i =>
    have hsame : h.attach i = h := by
      obtain ⟨c, o, hs⟩ := hl.session
      rw [attach, hs]
      cases i <;> rfl
    rw [run, hsame]
    exact .refl h
  | observe i =>
    have hpasses := (passes_runObserver h i).passes
    exact rests_of_calm (hpasses.sameArena hl.page.wellFormed hl.settled)
      (sessions_runObserver h i) (calm_runObserver h i)

theorem Live.rests_step (hl : h.Live d₀) : h.Rests h.step := by
  unfold step
  split
  · rename_i w rest hq
    have htaken : h.Rests { h with queue := rest } :=
      ⟨⟨rfl, rfl, rfl, rfl⟩, rfl, rfl, fun v hv => .inl (hq ▸ List.mem_cons_of_mem w hv)⟩
    exact htaken.trans ((hl.rests htaken).rests_run (hl.queue w (hq ▸ List.mem_cons_self)))
  · exact .refl h

theorem Live.rests_runQueued (hl : h.Live d₀) (n : Nat) : h.Rests (h.runQueued n) := by
  induction n generalizing h with
  | zero => exact .refl h
  | succ n ih =>
    rw [runQueued]
    split
    · exact .refl h
    · exact hl.rests_step.trans (ih (hl.rests hl.rests_step))

theorem exists_effort_eq (h : Host) : ∃ n, h.effort = n + 1 :=
  Nat.exists_eq_add_one.mpr (by simp [effort])

/-- Without timers, to wait is to let what is queued run. -/
theorem rests_sleep (hr : h'.Rests h.settle) (ht : h'.timers = []) (ms : Nat) :
    h'.Rests (h.sleep ms) := by
  have hsleep : h.sleep ms = { h.settle with now := h.now + ms } := by
    obtain ⟨n, hn⟩ := h.exists_effort_eq
    have hdue : h.settle.nextDue? = none := by
      rw [nextDue?, hr.timers, ht]
      rfl
    rw [sleep, hn, passTo, hdue]
  rw [hsleep]
  exact ⟨hr.arena, hr.sessions, hr.timers, hr.queue⟩

theorem Live.rests_sleep (hl : h.Live d₀) (ms : Nat) : h.Rests (h.sleep ms) :=
  Host.rests_sleep (hl.rests_runQueued h.effort) hl.timers ms

/-- So it is for a page that is live once its first piece of work has run. -/
theorem rests_sleep_of_step (hq : h.queue ≠ []) (hl : h.step.Live d₀) (ms : Nat) :
    h.step.Rests (h.sleep ms) := by
  obtain ⟨n, hn⟩ := h.exists_effort_eq
  have hsettle : h.settle = h.step.runQueued n := by
    rw [settle, hn, runQueued, if_neg (by simpa using hq)]
  exact Host.rests_sleep (hsettle ▸ hl.rests_runQueued n) hl.timers ms

/-! ## §4 Pages from a source -/

/-- A page with a new body is live once a pass has run, if it has its session. -/
theorem live_of_pass (hb : Built d₀ events h.document) (clipboard : String)
    (hd : (h.document.enhance clipboard).document.SameArena h'.document)
    (hs : ∃ c o, h'.sessions = [.observing c o]) (ht : h'.timers = [])
    (hq : ∀ w ∈ h'.queue, w.control? = none) : h'.Live d₀ ∧ h'.Shows events := by
  have hw := hb.page.wellFormed
  have henhanced := hb.page.enhance clipboard
  refine ⟨⟨henhanced.sameArena hd, ?_, ?_, hs, ht, hq⟩, ?_⟩
  · rw [hd.shape? henhanced.wellFormed, hb.page.shape?_head_enhance, hb.head]
  · exact (settled_enhance hw clipboard).congr henhanced.wellFormed hd
  · have hbody : h'.document.body = (h.document.enhance clipboard).document.body :=
      congrArg Prod.snd hd.landmarks
    rw [Shows, hbody, hd.shape? henhanced.wellFormed]
    exact hb.page.shape?_enhance clipboard hb.body

/-- So the first session makes a page live. -/
theorem live_attachSession (hb : Built d₀ events h.document) (hr : h.document.ready = .complete)
    (hs : h.sessions = []) (hq : h.queue = []) (ht : h.timers = []) (clipboard : String) :
    (h.attachSession clipboard none).2.Live d₀ ∧
      (h.attachSession clipboard none).2.Shows events := by
  obtain ⟨begun, hbegun⟩ : ∃ h' : Host, h' = (h.beginSession clipboard).2 := ⟨_, rfl⟩
  have hattach : (h.attachSession clipboard none).2 = begun.sleep 1 := by rw [hbegun]; rfl
  have hqueue : begun.queue = [.attach 0] := by
    rw [hbegun]
    show h.queue ++ [.attach h.sessions.length] = _
    rw [hq, hs]
    rfl
  -- the first piece of work attaches the session, on a host that has nothing else to do
  obtain ⟨taken, htaken⟩ : ∃ h' : Host, h' = { begun with queue := [] } := ⟨_, rfl⟩
  have hstep : begun.step = taken.attach 0 := by
    rw [step, hqueue, htaken]
    rfl
  have hdocument : taken.document = h.document := by rw [htaken, hbegun]; rfl
  have hsessions : taken.sessions = [.waiting clipboard true] := by
    rw [htaken, hbegun]
    show h.sessions ++ _ = _
    rw [hs]
    rfl
  have hcalm := calm_attach taken 0
  obtain ⟨harena, hobserving⟩ := attach_first hsessions (by rw [hdocument, hr])
  have hlive : begun.step.Live d₀ ∧ begun.step.Shows events := by
    rw [hstep]
    refine live_of_pass (hdocument ▸ hb) clipboard harena hobserving ?_ ?_
    · rw [hcalm.timers, htaken, hbegun]
      exact ht
    · exact hcalm.forall_queue (by simp [htaken])
  have hsleep := rests_sleep_of_step (by simp [hqueue]) hlive.1 1
  rw [hattach]
  exact ⟨hlive.1.rests hsleep, hlive.2.rests hlive.1 hsleep⟩

end Host

namespace LivePage

open Host

variable {h : Host} {d₀ : Document}

/-- Every source has a live page. -/
theorem ofMarkdown_spec (reader : Reader) (clipboard : ClipboardLink) (settings : Settings)
    (markdown : String) :
    ∃ d₀ h, buildPage (reader markdown) ⟨settings.stylesheet⟩ = .ok d₀ ∧
      ofMarkdown reader clipboard settings markdown = .ok h ∧ h.Live d₀ ∧
      h.Shows (reader markdown) := by
  obtain ⟨d, hd, hdraft⟩ := buildPage_spec (reader markdown) ⟨settings.stylesheet⟩
  have hready : d.SameArena d.markReady := ⟨rfl, rfl, rfl, rfl⟩
  have hw := hdraft.page.wellFormed
  have hmade : ofMarkdown reader clipboard settings markdown =
      .ok (((start d.markReady).setClipboard clipboardName clipboard).attachSession
        clipboardName none).2 := by
    rw [ofMarkdown, hd]
    rfl
  have hbuilt : Built d (reader markdown) d.markReady :=
    ⟨hdraft.page.sameArena hready, hready.shape? hw _, (hready.shape? hw _).trans hdraft.body⟩
  exact ⟨d, _, hd, hmade, live_attachSession hbuilt rfl rfl rfl rfl clipboardName⟩

theorem edit_of_ok {α : Type} {e : Edit α} {a : α} {d : Document}
    (he : e.apply h.document = (.ok a, d)) :
    ∃ h', h.edit e = (.ok a, h') ∧ h'.document = d ∧ h'.sessions = h.sessions ∧ h.Calm h' := by
  obtain ⟨hd, hs, hc⟩ := edit_spec h e
  have hresult : (h.edit e).1 = .ok a := congrArg Prod.fst he
  refine ⟨(h.edit e).2, Prod.ext hresult rfl, ?_, hs, hc⟩
  rw [hd, he]

/-- A live page takes every source. -/
theorem reload_spec (reader : Reader) (hl : h.Live d₀) (markdown : String) :
    ∃ h', reload reader h markdown = .ok h' ∧ h'.Live d₀ ∧ h'.Shows (reader markdown) := by
  obtain ⟨n, d, heq, hbuilt⟩ := hl.page.built_replaceBody hl.head (reader markdown)
  obtain ⟨c, o, hsession⟩ := hl.session
  obtain ⟨edited, hedit, rfl, hsessions, hcalm⟩ := edit_of_ok heq
  have hobserving : edited.sessions[session]? = some (.observing c o) := by
    rw [hsessions, hsession]
    rfl
  have hpass := hcalm.trans (edited.calm_enhance c)
  have hlive : (edited.enhance c).2.Live d₀ ∧ (edited.enhance c).2.Shows (reader markdown) := by
    refine live_of_pass hbuilt c ?_ ⟨c, o, ?_⟩ ?_ (hpass.forall_queue hl.queue)
    · rw [enhance_document]
      exact ⟨rfl, rfl, rfl, rfl⟩
    · exact ((edited.pass c).2.wake_spec.2.1.trans hsessions).trans hsession
    · rw [hpass.timers, hl.timers]
  have hrest := (edited.enhance c).2.rests_record (rendered (edited.enhance c).1)
  refine ⟨_, ?_, hlive.1.rests hrest, hlive.2.rests hlive.1 hrest⟩
  rw [reload, hedit]
  dsimp only
  rw [flushSession, hobserving]

/-! ## §5 Pages in files -/

variable {fs : FileSystem} {l m : Location}

/-- The body of a page, written after a pass. -/
def bodyHtml (d : Document) (clipboard : String) : String :=
  (d.enhance clipboard).document.outerHtml (d.enhance clipboard).document.body

/-- What is written of a live page has the head of the page as it was built, and the body of a fresh
page from the source that has been read last, after a pass. -/
theorem pageHtml_of_live {events : List Event} {options : PageOptions} {d : Document}
    (hl : h.Live d₀) (hs : h.Shows events) (hd : buildPage events options = .ok d)
    (clipboard : String) :
    h.document.pageHtml = "<!DOCTYPE html>\n<html>" ++ d₀.outerHtml d₀.head ++
      bodyHtml d clipboard ++ "</html>\n" := by
  obtain ⟨d', hd', hdraft⟩ := buildPage_spec events options
  obtain rfl := Except.ok.inj (hd.symm.trans hd')
  have hfresh := hdraft.page.shape?_enhance clipboard hdraft.body
  have hhead : h.document.outerHtml d₀.head = d₀.outerHtml d₀.head := by
    rw [outerHtml_eq, hl.head, ← outerHtml_eq]
  have hbody : h.document.outerHtml h.document.body = bodyHtml d clipboard := by
    rw [bodyHtml, outerHtml_of_shape? hs, outerHtml_of_shape? hfresh]
    rfl
  rw [hl.page.pageHtml_eq, hhead, hbody]

section load
variable {reader : Reader} {clipboard : ClipboardLink} {settings : Settings} {input : FilePath}

theorem run_load {markdown : String} (hs : fs.readText input = .ok markdown)
    (hh : ofMarkdown reader clipboard settings markdown = .ok h) :
    (load reader clipboard settings input : FileState _).run fs = pure (.ok h, fs) := by
  rw [load, StateT.run_bind, run_readText, hs, pure_bind]
  dsimp only
  rw [hh]
  rfl

theorem run_load_error {e : FileError} (hs : fs.readText input = .error e) :
    (load reader clipboard settings input : FileState _).run fs =
      pure (.error (.readPage input e), fs) := by
  rw [load, StateT.run_bind, run_readText, hs]
  rfl

end load

/-- Where it can be written, a page is moved to its place. All other files stay as they are. -/
theorem run_save {output : FilePath} (ht : fs.target (temporary output) = .ok m)
    (ho : fs.target output = .ok l) :
    ∃ fs', (save h output : FileState _).run fs = pure (.ok (), fs') ∧ fs.SameDirectories fs' ∧
      fs'.readText output = .ok h.document.pageHtml ∧
      ∀ k, k ≠ m → k ≠ l → fs'.entry? k = fs.entry? k := by
  obtain ⟨r, fs', hrun, hs⟩ := saves_save fs h output
  obtain rfl := hs.eq_ok_iff.mpr ⟨⟨m, ht⟩, l, ho⟩
  refine ⟨fs', hrun, hs.sameDirectories, ?_, fun k hkm hkl => hs.elsewhere ?_ ?_⟩
  · rw [readText_iff (hs.sameDirectories.target ho), hs.there ho, if_pos rfl]
  · exact fun hk => hkl (Except.ok.inj (hk.symm.trans ho))
  · exact fun hk => hkm (Except.ok.inj (hk.symm.trans ht))

end LivePage

end CopyControl
