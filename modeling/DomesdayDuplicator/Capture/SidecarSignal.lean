import DomesdayDuplicator.Capture.CaptureSession

/-!
# The signal a sidecar describes

A file is finished with the figures of the statistics the tick has copied, or of those
published last when the run has ended. They are of the samples in the file where nothing
has been added to the span since they were published.
-/

namespace SidecarSignal

open Execution SpanAccount CaptureSession
open SampleMetrics (added figures)
open CaptureFiles (Book book_step)
open CaptureController (Desk Metadata Path)
open SinkChange (Sink Pipeline)

universe u

variable {μ : Type u}

/-- Statistics of the span as it still is. -/
def Current (a : Account) (stats : Stats) : Prop :=
  stats.spanTurns ≤ a.spanTurns ∧
    (stats.spanTurns = a.spanTurns → stats.metrics.capture = figures a.metrics.capture)

/-- A sink that a swap has retired for the null sink is the last the span was opened for. -/
def Retired (sinks : Pipeline Nat) (a : Account) : Prop :=
  (sinks.sinkChangeCount ≠ 0 ∨ ∃ seen, sinks.pass = .swapped seen) →
    sinks.sink = some .null → ∀ f, sinks.retiredSink = some (.attached f) → a.spanFile = some f

/-- The sidecars are of the files on record, each of what its file holds. -/
def Described (s : Session μ) : Prop :=
  s.sidecars.length = s.desk.finished.length ∧
    ∀ (k : Nat) (said : Signal), s.sidecars[k]? = some said →
      said = signal (figures (added {} (s.account.contents k)))

/-- The books of one file at a time suffice, the sink is given what was tallied, and a
file is finished with statistics to which the span has added nothing. -/
def Careful (s : Session μ) : Action μ → Prop
  | .startCapture works file => s.idle → CaptureFiles.Careful s.desk (.startCapture works file)
  | .stopCapture => s.idle → CaptureFiles.Careful s.desk .stopCapture
  | .checkDurationLimit seconds factor => ∀ stats, s.tick = .read stats →
      s.reached seconds factor stats → CaptureFiles.Careful s.desk .stopCapture
  | .guiStep renamed => CaptureFiles.Careful s.desk (.guiStep renamed) ∧
      (s.desk.gui = .taking → ∀ stats, s.tick.stats = some stats →
        stats.spanTurns = s.account.spanTurns)
  | .processingStep flushed => CaptureFiles.Careful s.desk (.processingStep flushed)
  | .buffer values fate _ => storing s.desk.sinks.sink ≠ none → Kept values fate
  | _ => True

structure Sound (s : Session μ) : Prop where
  book : Book s.desk
  ordered : ∃ n, Ordered s.desk.files.length n s.desk.sinks s.account
  balanced : Balanced s.desk.sinks s.account
  retired : Retired s.desk.sinks s.account
  taking : s.desk.gui = .taking → s.account.spanFile = some s.desk.finished.length
  ticking : s.desk.gui = .collecting ∨ s.desk.gui = .taking ∨ s.desk.gui = .checking →
    s.tick.stats ≠ none
  published : Current s.account s.account.stats
  held : ∀ stats, s.tick.stats = some stats → Current s.account stats
  ended : s.desk.running = false → s.account.stats.spanTurns = s.account.spanTurns
  described : Described s

theorem sound_opening (metadata : Metadata μ) : Sound (opening metadata) := by
  constructor
  · exact CaptureFiles.book_start metadata
  · exact ⟨0, Nat.le_refl _, fun _ _ => rfl, nofun, nofun, nofun⟩
  · exact ⟨rfl, nofun, rfl⟩
  · exact fun _ none => nomatch none
  · exact nofun
  · exact nofun
  · exact ⟨Nat.le_refl _, fun _ => rfl⟩
  · exact nofun
  · exact fun _ => rfl
  · exact ⟨rfl, nofun⟩

/-! ## What a step of the desk leaves alone -/

/-- The pipeline's sink and pass, and the files and what is on record of them. -/
structure Still (d e : Desk μ) : Prop where
  sink : e.sinks.sink = d.sinks.sink
  pass : e.sinks.pass = d.sinks.pass
  pending : e.sinks.pendingSink = d.sinks.pendingSink ∨ e.sinks.pendingSink = none
  count : e.sinks.sinkChangeCount = d.sinks.sinkChangeCount
  retired : e.sinks.retiredSink = d.sinks.retiredSink ∨ e.sinks.retiredSink = none
  files : e.files.length = d.files.length
  finished : e.finished = d.finished

theorem Retired.of_eq {p q : Pipeline Nat} {a b : Account} (h : Retired p a)
    (sink : q.sink = p.sink) (pass : q.pass = p.pass)
    (count : q.sinkChangeCount = p.sinkChangeCount)
    (retired : q.retiredSink = p.retiredSink ∨ q.retiredSink = none)
    (spanFile : b.spanFile = a.spanFile) : Retired q b := by
  intro changed null f kept
  rw [spanFile]
  rw [count, pass] at changed
  rcases retired with same | none
  · exact h changed (sink ▸ null) f (same ▸ kept)
  · rw [none] at kept
    cases kept

theorem Current.of_eq {a b : Account} {stats : Stats} (h : Current a stats)
    (turns : b.spanTurns = a.spanTurns) (capture : b.metrics.capture = a.metrics.capture) :
    Current b stats := by
  rw [Current, turns, capture]
  exact h

/-- The span has been moved on since. -/
theorem Current.later {a b : Account} {stats : Stats} (h : Current a stats)
    (turns : a.spanTurns < b.spanTurns) : Current b stats :=
  ⟨Nat.le_of_lt (Nat.lt_of_le_of_lt h.1 turns),
    fun same => absurd (same ▸ turns) (Nat.not_lt.mpr h.1)⟩

theorem current_publish (sink : Option (Sink Nat)) (a : Account) :
    Current (a.publish sink) (a.publish sink).stats := ⟨Nat.le_refl _, fun _ => rfl⟩

theorem Current.passStep {a : Account} {stats : Stats} (h : Current a stats)
    (sinks : Pipeline Nat) : Current (a.passStep sinks) stats := by
  cases pass : sinks.pass with
  | swapping seen r =>
    simp only [Account.passStep, pass]
    cases r with
    | null => exact h.of_eq rfl rfl
    | attached f => exact h.later (Nat.lt_succ_self _)
  | _ => simpa only [Account.passStep, pass] using h

theorem Current.buffer {a : Account} {stats : Stats} (h : Current a stats)
    (sink : Option (Sink Nat)) (values : List Nat) (fate : Fate) :
    Current (a.buffer sink values fate) stats := by
  obtain ⟨-, capture, -⟩ := SampleMetrics.accumulate_one a.metrics (fate.counted values)
  have metrics : (a.buffer sink values fate).metrics =
      a.metrics.accumulate (SampleMetrics.tallyOf (fate.counted values)) := (write_same _ _ _).1
  have turns : (a.buffer sink values fate).spanTurns =
      if a.metrics.capturing then a.spanTurns + 1 else a.spanTurns := (write_same _ _ _).2.2.2
  cases capturing : a.metrics.capturing with
  | true =>
    rw [capturing, if_pos rfl] at turns
    exact h.later (turns ▸ Nat.lt_succ_self _)
  | false =>
    rw [capturing, if_neg Bool.false_ne_true] at turns capture
    exact h.of_eq turns (by rw [metrics, capture])

/-! ## Steps that keep the sink in place -/

section Steps

variable {s : Session μ}

theorem Sound.pipeline (h : Sound s) {d : Desk μ} (still : Still s.desk d) {a : Account}
    (metrics : a.metrics = s.account.metrics) (contents : a.contents = s.account.contents)
    (spanFile : a.spanFile = s.account.spanFile) :
    (∃ n, Ordered d.files.length n d.sinks a) ∧ Balanced d.sinks a ∧ Retired d.sinks a := by
  obtain ⟨n, ordered⟩ := h.ordered
  refine ⟨⟨n, ?_⟩, ?_, ?_⟩
  · rw [still.files]
    exact ordered.of_eq contents still.sink still.pass still.pending
  · exact h.balanced.of_eq still.sink metrics spanFile contents
  · exact h.retired.of_eq still.sink still.pass still.count still.retired spanFile

theorem stopCapture_still (d : Desk μ) : Still d (d.step .stopCapture) ∧
    ((d.step .stopCapture).gui = d.gui ∨ (d.step .stopCapture).gui = .stopping) ∧
    (d.step .stopCapture).running = d.running := by
  by_cases stops : d.gui = .ready ∧ d.capturing = true
  · have taken : d.step .stopCapture =
        { d with sinks := (SinkChange.detachSink d.sinks).1, gui := .stopping } := by
      simp only [Desk.step, Desk.stopCapture, stops.1, stops.2, if_true]
    rw [taken]
    exact ⟨⟨rfl, rfl, Or.inr rfl, rfl, Or.inl rfl, rfl, rfl⟩, Or.inr rfl, rfl⟩
  · have same : d.step .stopCapture = d := by
      simp only [Desk.step, Desk.stopCapture]
      split
      · rw [if_neg (fun capturing => stops ⟨‹_›, capturing⟩)]
      · rfl
    rw [same]
    exact ⟨⟨rfl, rfl, Or.inl rfl, rfl, Or.inl rfl, rfl, rfl⟩, Or.inl rfl, rfl⟩

/-- `StopCapture`, by the user or by the limit. -/
theorem Sound.stops (h : Sound s) (ready : s.desk.gui = .ready)
    (careful : CaptureFiles.Careful s.desk .stopCapture) (tick : Tick)
    (same : tick.stats = s.tick.stats) (stops : List Stop) :
    Sound { s with desk := s.desk.step .stopCapture, tick, stops } := by
  obtain ⟨still, gui, running⟩ := stopCapture_still s.desk
  obtain ⟨ordered, balanced, retired⟩ := h.pipeline still rfl rfl rfl
  have outside : (s.desk.step .stopCapture).gui = .ready ∨
      (s.desk.step .stopCapture).gui = .stopping := gui.imp_left fun kept => kept.trans ready
  constructor
  · exact book_step h.book careful
  · exact ordered
  · exact balanced
  · exact retired
  · intro taking
    rcases outside with at_rest | at_rest
    · exact nomatch taking.symm.trans at_rest
    · exact nomatch taking.symm.trans at_rest
  · intro place
    rcases outside with at_rest | at_rest
    · simp [show (s.desk.step .stopCapture).gui = _ from at_rest] at place
    · simp [show (s.desk.step .stopCapture).gui = _ from at_rest] at place
  · exact h.published
  · rw [same]
    exact h.held
  · rw [running]
    exact h.ended
  · rw [Described, still.finished]
    exact h.described

/-- A part of a call that finishes no file. -/
theorem Sound.turns (h : Sound s) (renamed : Option Path)
    (careful : CaptureFiles.Careful s.desk (.guiStep renamed)) {d : Desk μ}
    (step : s.desk.step (.guiStep renamed) = d) (still : Still s.desk d)
    (running : d.running = s.desk.running) (none : s.finishing = [])
    (unchecked : s.desk.gui ≠ .checking)
    (taking : d.gui = .taking → s.account.spanFile = some s.desk.finished.length)
    (ticking : d.gui = .collecting ∨ d.gui = .taking ∨ d.gui = .checking →
      s.tick.stats ≠ .none) : Sound (s.guiStep renamed) := by
  have whole : s.guiStep renamed = { s with desk := d } := by
    simp only [Session.guiStep, step, none, List.append_nil, if_neg unchecked]
  obtain ⟨ordered, balanced, retired⟩ := h.pipeline still rfl rfl rfl
  rw [whole]
  refine ⟨?_, ordered, balanced, retired, ?_, ticking, h.published, h.held, ?_, ?_⟩
  · rw [← step]
    exact book_step h.book careful
  · rw [still.finished]
    exact taking
  · rw [running]
    exact h.ended
  · rw [Described, still.finished]
    exact h.described

/-- A part of `AttachSink` or `DetachSink` is a step of the caller. -/
theorem call_step (renamed : Option Path) {d : Desk μ}
    (calling : d.gui = .starting ∨ d.gui = .stopping) :
    ∃ (capturing : Bool) (pending : Nat) (gui : CaptureController.Gui),
      d.step (.guiStep renamed) =
        { d with
          sinks := (SinkChange.callerStep d.sinks).1
          capturing
          pendingSinkChange := pending
          gui } ∧ (gui = .ready ∨ gui = d.gui) := by
  rcases calling with starting | stopping
  · by_cases finished : (SinkChange.callerStep d.sinks).1.caller = .idle
    · refine ⟨true, d.pendingSinkChange, .ready, ?_, Or.inl rfl⟩
      simp only [Desk.step, Desk.guiStep, starting, if_pos finished]
    · refine ⟨d.capturing, d.pendingSinkChange, d.gui, ?_, Or.inr rfl⟩
      simp only [Desk.step, Desk.guiStep, starting, if_neg finished]
  · simp only [Desk.step, Desk.guiStep, stopping]
    cases call : SinkChange.callerStep d.sinks with
    | mk sinks event =>
      cases event with
      | numbered request => exact ⟨false, request, .ready, rfl, Or.inl rfl⟩
      | quiet => exact ⟨d.capturing, d.pendingSinkChange, .stopping, by rw [← stopping], Or.inr rfl⟩
      | requested request superseded =>
        exact ⟨d.capturing, d.pendingSinkChange, .stopping, by rw [← stopping], Or.inr rfl⟩

theorem Sound.calls (h : Sound s) (renamed : Option Path)
    (calling : s.desk.gui = .starting ∨ s.desk.gui = .stopping) : Sound (s.guiStep renamed) := by
  obtain ⟨sink, pass, pending⟩ := callerStep_same s.desk.sinks
  obtain ⟨count, kept⟩ := callerStep_counts s.desk.sinks
  obtain ⟨capturing, waiting, gui, step, outside⟩ := call_step renamed calling
  have none : s.finishing = [] := by
    rcases calling with starting | stopping
    · simp only [Session.finishing, starting]
    · simp only [Session.finishing, stopping]
  have unchecked : s.desk.gui ≠ .checking := by
    rcases calling with starting | stopping
    · simp [starting]
    · simp [stopping]
  apply h.turns renamed (fun checking => absurd checking unchecked) step
    ⟨sink, pass, Or.inl pending, count, Or.inl kept, rfl, rfl⟩ rfl none unchecked
  · intro taking
    rcases outside with ready | same
    · exact nomatch ready.symm.trans taking
    · rcases calling with starting | stopping
      · exact nomatch (same.trans starting).symm.trans taking
      · exact nomatch (same.trans stopping).symm.trans taking
  · intro place
    rcases outside with rfl | rfl
    · simp at place
    · exact h.ticking place

/-- A tick takes up the retired sink of the file the span was opened for. -/
theorem Sound.collects (h : Sound s) (renamed : Option Path)
    (collecting : s.desk.gui = .collecting) : Sound (s.guiStep renamed) := by
  have none : s.finishing = [] := by simp only [Session.finishing, collecting]
  have unchecked : s.desk.gui ≠ .checking := by simp [collecting]
  have ticking : s.tick.stats ≠ .none := h.ticking (Or.inl collecting)
  have careful : CaptureFiles.Careful s.desk (.guiStep renamed) :=
    fun checking => absurd checking unchecked
  by_cases early : s.desk.pendingSinkChange = 0 ∨
      s.desk.sinks.sinkChangeCount < s.desk.pendingSinkChange
  · have step : s.desk.step (.guiStep renamed) = { s.desk with gui := .checking } := by
      simp only [Desk.step, Desk.guiStep, collecting, if_pos early]
    exact h.turns renamed careful step ⟨rfl, rfl, Or.inl rfl, rfl, Or.inl rfl, rfl, rfl⟩ rfl none
      unchecked (by rintro ⟨⟩) fun _ => ticking
  · have step : s.desk.step (.guiStep renamed) =
        { s.desk with pendingSinkChange := 0, gui := .taking } := by
      simp only [Desk.step, Desk.guiStep, collecting, if_neg early]
    apply h.turns renamed careful step ⟨rfl, rfl, Or.inl rfl, rfl, Or.inl rfl, rfl, rfl⟩ rfl none
      unchecked ?_ fun _ => ticking
    intro _
    rw [not_or, Nat.not_lt] at early
    obtain ⟨waits, counted⟩ := early
    cases h.book.stage with
    | stopped f opened _ _ _ _ _ detached =>
      obtain ⟨clear, retired⟩ := detached.counted counted
      rw [opened.finished]
      exact h.retired (Or.inl (by omega)) clear.sink f retired
    | idle _ _ pending => exact absurd pending waits
    | starting _ _ gui => simp [collecting] at gui
    | recording _ _ _ _ pending => exact absurd pending waits
    | stopping _ _ gui => simp [collecting] at gui
    | taking _ _ gui => simp [collecting] at gui

/-- One more file on record, and one more sidecar of what that file holds. -/
theorem Described.finish {t : Session μ} (h : Described s) {said : Signal}
    (account : t.account = s.account) (sidecars : t.sidecars = s.sidecars ++ [said])
    (finished : t.desk.finished.length = s.desk.finished.length + 1)
    (tells : said = signal (figures (added {} (s.account.contents s.desk.finished.length)))) :
    Described t := by
  constructor
  · rw [sidecars, finished, List.length_append, h.1, List.length_singleton]
  · intro k known present
    rw [account]
    rw [sidecars, List.getElem?_append] at present
    split at present
    · exact h.2 k known present
    · rename_i past
      have last : k - s.sidecars.length = 0 ∧ known = said := by
        cases place : k - s.sidecars.length with
        | zero => simpa [place] using present.symm
        | succ n => simp [place] at present
      obtain rfl : k = s.desk.finished.length := by
        rw [← h.1]
        omega
      exact last.2.trans tells

/-- The figures of statistics that are current are those of the file of the span. -/
theorem Sound.figures (h : Sound s) {stats : Stats} (current : Current s.account stats)
    (now : stats.spanTurns = s.account.spanTurns) {f : Nat}
    (spanFile : s.account.spanFile = some f) :
    signal stats.metrics.capture = signal (figures (added {} (s.account.contents f))) := by
  rw [current.2 now, h.balanced.capture, spanFile, Option.elim_some]

theorem Sound.takes (h : Sound s) (renamed : Option Path) (taking : s.desk.gui = .taking)
    (careful : Careful s (.guiStep renamed)) : Sound (s.guiStep renamed) := by
  obtain ⟨stats, copy⟩ := Option.ne_none_iff_exists'.mp (h.ticking (Or.inr (Or.inl taking)))
  have now := careful.2 taking stats copy
  have step : s.desk.step (.guiStep renamed) =
      { s.desk with
        sinks := { s.desk.sinks with retiredSink := none }
        gui := .checking }.finishCaptureFile renamed
        (s.desk.bytesWritten s.desk.sinks.retiredSink)
        (s.desk.samplesWritten s.desk.retiredNullSamples s.desk.sinks.retiredSink) := by
    simp only [Desk.step, Desk.guiStep, taking]
  have whole : s.guiStep renamed =
      { s with
        desk := s.desk.step (.guiStep renamed)
        sidecars := s.sidecars ++ [signal stats.metrics.capture] } := by
    simp only [Session.guiStep, Session.finishing, taking, copy, reduceCtorEq, if_false]
  have next := book_step h.book careful.1
  rw [whole, step]
  obtain ⟨n, ordered⟩ := h.ordered
  constructor
  · rw [← step]
    exact next
  · exact ⟨n, ordered.of_eq rfl rfl rfl (Or.inl rfl)⟩
  · exact h.balanced.of_eq rfl rfl rfl rfl
  · exact h.retired.of_eq rfl rfl rfl (Or.inr rfl) rfl
  · rintro ⟨⟩
  · exact fun _ => h.ticking (Or.inr (Or.inl taking))
  · exact h.published
  · exact h.held
  · exact h.ended
  · exact h.described.finish rfl rfl (by simp [Desk.finishCaptureFile])
      (h.figures (h.held stats copy) now (h.taking taking))

/-- A tick is over. -/
theorem Sound.returns (h : Sound s) {d : Desk μ} {sidecars : List Signal} (book : Book d)
    (sinks : d.sinks = s.desk.sinks) (files : d.files = s.desk.files) (gui : d.gui = .ready)
    (running : d.running = s.desk.running)
    (described : Described { s with desk := d, tick := .out, sidecars }) :
    Sound { s with desk := d, tick := .out, sidecars } := by
  constructor
  · exact book
  · simp only [sinks, files]
    exact h.ordered
  · simp only [sinks]
    exact h.balanced
  · simp only [sinks]
    exact h.retired
  · simp [gui]
  · simp [gui]
  · exact h.published
  · exact nofun
  · simp only [running]
    exact h.ended
  · exact described

/-- The end of a run finishes the file with what was published last. -/
theorem Sound.checks (h : Sound s) (renamed : Option Path) (checking : s.desk.gui = .checking)
    (careful : Careful s (.guiStep renamed)) : Sound (s.guiStep renamed) := by
  have next := book_step h.book careful.1
  by_cases ending : s.desk.monitoring = true ∧ s.desk.running = false ∧ s.desk.capturing = true
  · obtain ⟨on, down, capturing⟩ := ending
    have step : s.desk.step (.guiStep renamed) =
        { s.desk with
          gui := .ready
          monitoring := false
          capturing := false
          pendingSinkChange := 0 }.finishCaptureFile renamed s.desk.publishedBytes
          s.desk.publishedSamples := by
      simp [Desk.step, Desk.guiStep, checking, on, down, Desk.finishRun, capturing]
    have whole : s.guiStep renamed =
        { s with
          desk := s.desk.step (.guiStep renamed)
          tick := .out
          sidecars := s.sidecars ++ [signal s.account.stats.metrics.capture] } := by
      simp [Session.guiStep, Session.finishing, checking, on, down, capturing]
    obtain ⟨f, sink⟩ := (careful.1 checking on down).2 capturing
    have last : f = s.desk.finished.length := h.book.stage.attached on sink
    have spanFile := h.balanced.spanned f (storing_eq.mpr sink)
    rw [step] at next
    rw [whole, step]
    apply h.returns next rfl rfl rfl rfl
    exact h.described.finish rfl rfl (by simp [Desk.finishCaptureFile])
      (h.figures h.published (h.ended down) (last ▸ spanFile))
  · obtain ⟨monitoring, capturing, pending, step⟩ : ∃ monitoring capturing pending,
        s.desk.step (.guiStep renamed) =
          { s.desk with
            gui := .ready
            monitoring
            capturing
            pendingSinkChange := pending } := by
      by_cases ended : s.desk.monitoring = true ∧ s.desk.running = false
      · obtain ⟨on, down⟩ := ended
        have idle : s.desk.capturing = false := by
          cases capturing : s.desk.capturing with
          | false => rfl
          | true => exact absurd ⟨on, down, capturing⟩ ending
        exact ⟨false, false, 0, by
          simp [Desk.step, Desk.guiStep, checking, on, down, Desk.finishRun, idle]⟩
      · refine ⟨s.desk.monitoring, s.desk.capturing, s.desk.pendingSinkChange, ?_⟩
        simp only [Desk.step, Desk.guiStep, checking, Bool.not_eq_true, if_neg ended]
    have whole : s.guiStep renamed =
        { s with desk := s.desk.step (.guiStep renamed), tick := .out } := by
      simp only [Session.guiStep, Session.finishing, checking, Bool.not_eq_true, if_neg ending,
        if_true, List.append_nil]
    rw [step] at next
    rw [whole, step]
    exact h.returns next rfl rfl rfl rfl h.described

theorem Sound.guiStep (h : Sound s) (renamed : Option Path)
    (careful : Careful s (.guiStep renamed)) : Sound (s.guiStep renamed) := by
  cases gui : s.desk.gui with
  | ready =>
    have step : s.desk.step (.guiStep renamed) = s.desk := by
      simp only [Desk.step, Desk.guiStep, gui]
    exact h.turns renamed careful.1 step ⟨rfl, rfl, Or.inl rfl, rfl, Or.inl rfl, rfl, rfl⟩ rfl
      (by simp only [Session.finishing, gui]) (by simp [gui]) h.taking h.ticking
  | starting => exact h.calls renamed (Or.inl gui)
  | stopping => exact h.calls renamed (Or.inr gui)
  | collecting => exact h.collects renamed gui
  | taking => exact h.takes renamed gui careful
  | checking => exact h.checks renamed gui careful

/-! ## Steps of the pipeline -/

theorem Retired.processingStep {p : Pipeline Nat} {a : Account} (h : Retired p a)
    (balanced : Balanced p a) (some : p.sink ≠ none) :
    Retired (SinkChange.processingStep p) (a.passStep p) := by
  simp only [SinkChange.processingStep, Account.passStep]
  cases pass : p.pass with
  | swapping seen r =>
    intro _ null f retired
    cases r with
    | attached g => cases null
    | null =>
      simp only [Option.isSome_iff_ne_none.mpr some, if_true] at retired
      exact balanced.spanned f (storing_eq.mpr retired)
  | swapped seen => exact fun _ null f retired => h (Or.inr ⟨seen, pass⟩) null f retired
  | idle =>
    intro changed null f retired
    refine h (changed.imp_right ?_) null f retired
    rintro ⟨_, ⟨⟩⟩
  | loaded seen =>
    intro changed null f retired
    refine h (changed.imp_right ?_) null f retired
    rintro ⟨_, ⟨⟩⟩
  | taken seen incoming =>
    intro changed null f retired
    refine h (changed.imp_right ?_) null f retired
    rintro ⟨late, same⟩
    simp only at same
    split at same
    · cases same
    · cases same

/-- There is a sink in place while the stream is monitored. -/
theorem stage_sink {d : Desk μ} (h : CaptureFiles.Stage d) (on : d.monitoring = true) :
    d.sinks.sink ≠ none := by
  have held : ∀ f, CaptureBookkeeping.Held f d.sinks → d.sinks.sink ≠ none := by
    intro f held
    cases held with
    | waiting _ sink => simp [sink]
    | taken _ _ _ sink => simp [sink]
    | swapping _ _ _ sink => simp [sink]
    | installed sink => simp [sink]
  cases h with
  | idle _ _ _ _ clear => simp [(clear on).1.sink]
  | starting f _ _ _ _ _ waits => exact held f waits
  | recording f _ _ _ _ _ waits => exact held f waits
  | stopping f _ _ _ waits => exact held f waits
  | stopped f _ _ _ _ _ _ detached =>
    cases detached with
    | asked waits => exact held f waits
    | leaving _ sink => simp [sink]
    | retiring _ sink => simp [sink]
    | acknowledged clear => simp [clear.sink]
  | taking _ _ _ _ _ _ clear => simp [clear.sink]

/-- A pass swaps nothing while a file is taken up. -/
theorem Sound.passStep_taking (h : Sound s) (taking : s.desk.gui = .taking) :
    s.account.passStep s.desk.sinks = s.account := by
  cases h.book.stage with
  | taking f _ _ _ _ _ clear =>
    have empty := clear.pass
    cases pass : s.desk.sinks.pass with
    | swapping seen r => simp [pass, CaptureBookkeeping.Empty] at empty
    | _ => simp only [Account.passStep, pass]
  | idle gui => simp [CaptureFiles.AtRest, taking] at gui
  | starting _ _ gui => simp [taking] at gui
  | recording _ _ gui => simp [CaptureFiles.AtRest, taking] at gui
  | stopping _ _ gui => simp [taking] at gui
  | stopped _ _ gui => simp [CaptureFiles.AtRest, taking] at gui

theorem Sound.processingStep (h : Sound s) (ready : s.ready = true) (flushed : Nat)
    (careful : CaptureFiles.Careful s.desk (.processingStep flushed)) :
    Sound { s with
      desk := s.desk.step (.processingStep flushed)
      account := s.account.passStep s.desk.sinks } := by
  simp only [Session.ready, Bool.and_eq_true] at ready
  obtain ⟨⟨⟨running, processing⟩, -⟩, -⟩ := ready
  obtain ⟨n, ordered⟩ := h.ordered
  obtain ⟨apart, sinks⟩ := processingStep_apart flushed s.desk
  obtain ⟨contents, stats⟩ := passStep_same s.desk.sinks s.account
  have next := book_step h.book careful
  have step : s.desk.step (.processingStep flushed) = s.desk.processingStep flushed := by
    simp only [Desk.step, running, processing, and_self, if_true]
  rw [step] at next ⊢
  constructor
  · exact next
  · simp only [sinks, apart.files]
    exact ordered.processingStep
  · simp only [sinks]
    exact h.balanced.processingStep ordered
  · simp only [sinks]
    exact h.retired.processingStep h.balanced (stage_sink h.book.stage (h.book.alive running))
  · intro taking
    rw [apart.gui] at taking
    simp only [h.passStep_taking taking, apart.finished]
    exact h.taking taking
  · simp only [apart.gui]
    exact h.ticking
  · simp only [stats]
    exact h.published.passStep s.desk.sinks
  · exact fun held copy => (h.held held copy).passStep s.desk.sinks
  · simp [apart.running, running]
  · rw [Described]
    simp only [apart.finished, contents]
    exact h.described

theorem Sound.buffer (h : Sound s) (ready : s.ready = true) (pass : s.desk.sinks.pass = .idle)
    (values : List Nat) (fate : Fate) (bytes : Nat)
    (kept : storing s.desk.sinks.sink ≠ none → Kept values fate) :
    Sound { s with
      desk := s.desk.step (.write (fate.written values).length bytes)
      account := s.account.buffer s.desk.sinks.sink values fate } := by
  simp only [Session.ready, Bool.and_eq_true] at ready
  obtain ⟨⟨⟨running, processing⟩, -⟩, -⟩ := ready
  obtain ⟨n, ordered⟩ := h.ordered
  obtain ⟨apart, sinks⟩ := write_apart (fate.written values).length bytes s.desk
  have next := book_step h.book
    (show CaptureFiles.Careful s.desk (.write (fate.written values).length bytes) from trivial)
  have step : s.desk.step (.write (fate.written values).length bytes) =
      s.desk.write (fate.written values).length bytes := by
    simp only [Desk.step, running, processing, pass, and_self, if_true]
  rw [step] at next ⊢
  constructor
  · exact next
  · simp only [sinks, apart.files]
    exact ⟨n, ordered.buffer values fate⟩
  · simp only [sinks]
    exact h.balanced.buffer kept
  · simp only [sinks]
    exact h.retired.of_eq rfl rfl rfl (Or.inl rfl) (buffer_spanFile _ _ _ _)
  · simp only [apart.gui, apart.finished, buffer_spanFile]
    exact h.taking
  · simp only [apart.gui]
    exact h.ticking
  · simp only [buffer_stats]
    exact h.published.buffer _ _ _
  · exact fun held copy => (h.held held copy).buffer _ _ _
  · simp [apart.running, running]
  · obtain ⟨count, each⟩ := h.described
    rw [Described]
    simp only [apart.finished]
    refine ⟨count, ?_⟩
    intro k known present
    -- the file in place is not yet on record
    have older : k < s.desk.finished.length := by
      rw [← count]
      exact (List.getElem?_eq_some_iff.mp present).1
    rw [buffer_contents, if_neg]
    · exact each k known present
    · intro place
      have := h.book.attached running (storing_eq.mp place)
      omega

theorem Sound.publish (h : Sound s) {d : Desk μ} (book : Book d) (sinks : d.sinks = s.desk.sinks)
    (gui : d.gui = s.desk.gui) (files : d.files.length = s.desk.files.length)
    (finished : d.finished = s.desk.finished) :
    Sound { s with desk := d, account := s.account.publish s.desk.sinks.sink } := by
  obtain ⟨n, ordered⟩ := h.ordered
  constructor
  · exact book
  · simp only [sinks, files]
    exact ⟨n, ordered.of_eq rfl rfl rfl (Or.inl rfl)⟩
  · simp only [sinks]
    exact h.balanced.of_eq rfl rfl rfl rfl
  · simp only [sinks]
    exact h.retired
  · simp only [gui, finished]
    exact h.taking
  · simp only [gui]
    exact h.ticking
  · exact current_publish s.desk.sinks.sink s.account
  · exact h.held
  · exact fun _ => rfl
  · rw [Described]
    simp only [finished]
    exact h.described

/-! ## The calls that begin a run or a capture -/

theorem Sound.started (h : Sound s) (ready : s.desk.gui = .ready) (works : Bool) :
    Sound { s with desk := s.desk.startMonitoring works, account := s.started works } := by
  have book := h.book.startMonitoring works
  by_cases stays : s.desk.monitoring ∨ s.desk.running ∨ ¬ works
  · simpa only [Desk.startMonitoring, Session.started, if_pos stays] using h
  · simp only [Desk.startMonitoring, Session.started, if_neg stays] at book ⊢
    obtain ⟨n, ordered⟩ := h.ordered
    constructor
    · exact book
    · exact ⟨n, ordered.begin { SinkChange.start (some .null) with
        retiredSink := s.desk.sinks.retiredSink } (Or.inr rfl) rfl rfl⟩
    · exact Balanced.begin { SinkChange.start (some .null) with
        retiredSink := s.desk.sinks.retiredSink } (Or.inr rfl) s.account
    · rintro (counted | ⟨seen, swapped⟩)
      · exact absurd rfl counted
      · cases swapped
    · intro taking
      cases ready.symm.trans taking
    · simp [ready]
    · exact h.published.later (Nat.lt_succ_self _)
    · exact fun held copy => (h.held held copy).later (Nat.lt_succ_self _)
    · rintro ⟨⟩
    · exact h.described

/-- A file is opened, and its sink attached. -/
theorem Sound.opens (h : Sound s) (path : Path) (setup : μ)
    (book : Book { s.desk.openCaptureFile path setup with
      sinks := (SinkChange.attachSink s.desk.files.length s.desk.sinks).1
      gui := .starting }) :
    Sound { s with
      desk := { s.desk.openCaptureFile path setup with
        sinks := (SinkChange.attachSink s.desk.files.length s.desk.sinks).1
        gui := .starting } } := by
  obtain ⟨n, ordered⟩ := h.ordered
  constructor
  · exact book
  · refine ⟨n, ?_⟩
    simpa only [Desk.openCaptureFile, List.length_append, List.length_singleton] using
      ordered.attach
  · exact h.balanced.of_eq rfl rfl rfl rfl
  · exact h.retired.of_eq rfl rfl rfl (Or.inl rfl) rfl
  · rintro ⟨⟩
  · simp
  · exact h.published
  · exact h.held
  · exact h.ended
  · exact h.described

theorem Sound.startCapture (h : Sound s) (ready : s.desk.gui = .ready) (works : Bool)
    (file : Option (Path × μ))
    (careful : CaptureFiles.Careful s.desk (.startCapture works file)) :
    Sound { s with
      desk := s.desk.step (.startCapture works file)
      account := if s.desk.capturing then s.account else s.started works } := by
  have next := book_step h.book careful
  have step : s.desk.step (.startCapture works file) = s.desk.startCapture works file := by
    simp only [Desk.step, ready, if_true]
  rw [step] at next ⊢
  cases capturing : s.desk.capturing with
  | true => simpa only [Desk.startCapture, capturing, if_true] using h
  | false =>
    have begun := h.started ready works
    simp only [Desk.startCapture, capturing, Bool.false_eq_true, if_false] at next ⊢
    cases on : (s.desk.startMonitoring works).monitoring with
    | false => simpa only [Bool.false_eq_true, if_false] using begun
    | true =>
      simp only [on, if_true] at next ⊢
      cases file with
      | none => exact begun
      | some opened => exact begun.opens opened.1 opened.2 next

theorem sound_step (h : Sound s) {a : Action μ} (careful : Careful s a) : Sound (s.step a) := by
  cases a with
  | startMonitoring works =>
    simp only [Session.step]
    split
    · rename_i idle
      have step : s.desk.step (.startMonitoring works) = s.desk.startMonitoring works := by
        simp only [Desk.step, idle.2, if_true]
      rw [step]
      exact h.started idle.2 works
    · exact h
  | startCapture works file =>
    simp only [Session.step]
    split
    · rename_i idle
      exact h.startCapture idle.2 works file (careful idle)
    · exact h
  | stopCapture =>
    simp only [Session.step]
    split
    · rename_i idle
      exact h.stops idle.2 (careful idle) s.tick rfl s.stops
    · exact h
  | stopMonitoring => exact h
  | readStats =>
    simp only [Session.step]
    split
    · rename_i idle
      refine ⟨h.book, h.ordered, h.balanced, h.retired, h.taking, ?_, h.published, ?_, h.ended,
        h.described⟩
      · simp [Tick.stats]
      · intro stats copy
        rw [← Option.some.inj copy]
        exact h.published
    · exact h
  | checkDurationLimit seconds factor =>
    simp only [Session.step]
    split
    · rename_i ready
      cases copy : s.tick with
      | read stats =>
        simp only [Session.checkDurationLimit, copy]
        split
        · rename_i reached
          exact h.stops ready (careful stats copy reached) (.checked stats) (by rw [copy]; rfl) _
        · refine ⟨h.book, h.ordered, h.balanced, h.retired, h.taking, ?_, h.published, ?_, h.ended,
            h.described⟩
          · simp [Tick.stats]
          · exact fun held same => h.held held (by rw [copy]; exact same)
      | _ => simpa only [Session.checkDurationLimit, copy] using h
    · exact h
  | collectFinishedCapture =>
    cases copy : s.tick with
    | checked stats =>
      simp only [Session.step, copy]
      split
      · rename_i ready
        have next := book_step h.book (show CaptureFiles.Careful s.desk .tick from trivial)
        have step : s.desk.step .tick = { s.desk with gui := .collecting } := by
          simp only [Desk.step, ready, if_true]
        rw [step] at next ⊢
        refine ⟨next, h.ordered, h.balanced, h.retired, by rintro ⟨⟩, ?_, h.published, ?_, h.ended,
          h.described⟩
        · simp [Tick.stats]
        · exact fun held same => h.held held (by rw [copy]; exact same)
      · exact h
    | _ => simpa only [Session.step, copy] using h
  | guiStep renamed => exact h.guiStep renamed careful
  | processingStep flushed =>
    simp only [Session.step]
    split
    · rename_i ready
      exact h.processingStep ready flushed careful
    · exact h
  | buffer values fate bytes =>
    simp only [Session.step]
    split
    · rename_i may
      exact h.buffer may.1 may.2.1 values fate bytes careful
    · exact h
  | publish =>
    simp only [Session.step]
    split
    · exact h.publish h.book rfl rfl rfl rfl
    · exact h
  | leave =>
    simp only [Session.step]
    split
    · rename_i may
      have next := book_step h.book (show CaptureFiles.Careful s.desk .leave from trivial)
      have step : s.desk.step .leave = { s.desk with processing := false } := by
        simp only [Desk.step, may.2.2.2, if_true]
      obtain ⟨n, ordered⟩ := h.ordered
      rw [step] at next ⊢
      exact ⟨next, ⟨n, ordered.of_eq rfl rfl rfl (Or.inl rfl)⟩, h.balanced.of_eq rfl rfl rfl rfl,
        h.retired, h.taking, h.ticking, h.published, h.held, h.ended, h.described⟩
    · exact h
  | close flushed =>
    simp only [Session.step]
    split
    · rename_i may
      have next := book_step h.book (show CaptureFiles.Careful s.desk (.close flushed) from trivial)
      have step : s.desk.step (.close flushed) = s.desk.close flushed := by
        simp [Desk.step, may.1, may.2.1]
      have apart := grow_apart s.desk.sinks.sink 0 flushed s.desk
      rw [step] at next ⊢
      exact h.publish next (CaptureFiles.grow_sinks s.desk.sinks.sink 0 flushed s.desk) apart.gui
        apart.files apart.finished
    · exact h

end Steps

/-- The sidecar of every file on record tells of the samples in that file, and that it
knows them if there are any. -/
theorem sidecars_described {metadata : Metadata μ} {events : List Unit} {s : Session μ}
    (run : Run machine Careful (opening metadata) events s) :
    s.sidecars.length = s.desk.finished.length ∧
      ∀ (k : Nat) (said : Signal), s.sidecars[k]? = some said →
        said = signal (figures (added {} (s.account.contents k))) ∧
          ((s.account.contents k).length < 2 ^ 64 →
            said.known = decide (0 < (s.account.contents k).length)) := by
  have sound : Sound s := run.invariant (sound_opening metadata) fun _ _ sound careful =>
    sound_step sound careful
  refine ⟨sound.described.1, ?_⟩
  intro k said present
  have tells := sound.described.2 k said present
  refine ⟨tells, fun short => ?_⟩
  rw [tells]
  simp only [signal, figures, added_sampleCount, Nat.mod_eq_of_lt short]

/-- `Careful` as a check on computed runs. -/
def careful (s : Session μ) : Action μ → Bool
  | .startCapture works file => CaptureFiles.careful s.desk (.startCapture works file)
  | .stopCapture | .checkDurationLimit _ _ => CaptureFiles.careful s.desk .stopCapture
  | .guiStep renamed => CaptureFiles.careful s.desk (.guiStep renamed) &&
      (s.desk.gui != .taking ||
        s.tick.stats.all fun stats => stats.spanTurns == s.account.spanTurns)
  | .processingStep flushed => CaptureFiles.careful s.desk (.processingStep flushed)
  | .buffer _ fate _ => fate == .whole || (storing s.desk.sinks.sink).isNone
  | _ => true

theorem careful_sound (s : Session μ) (a : Action μ) (h : careful s a = true) : Careful s a := by
  cases a with
  | startCapture works file => exact fun _ => CaptureFiles.careful_sound s.desk _ h
  | stopCapture => exact fun _ => CaptureFiles.careful_sound s.desk .stopCapture h
  | checkDurationLimit seconds factor =>
    exact fun _ _ _ => CaptureFiles.careful_sound s.desk .stopCapture h
  | guiStep renamed =>
    rw [careful, Bool.and_eq_true] at h
    refine ⟨CaptureFiles.careful_sound s.desk _ h.1, fun taking stats copy => ?_⟩
    simpa [taking, copy] using h.2
  | processingStep flushed => exact CaptureFiles.careful_sound s.desk (.processingStep flushed) h
  | buffer values fate bytes =>
    intro inPlace
    rw [careful, Bool.or_eq_true, beq_iff_eq, Option.isNone_iff_eq_none] at h
    rcases h with whole | none
    · exact Or.inl whole
    · exact absurd none inPlace
  | _ => trivial

/-- A file is attached, given three samples, and its detach asked for. -/
def stopping : List (Action Unit) :=
  [.startCapture true (some (⟨"captures", "a"⟩, ())), .guiStep none, .guiStep none] ++
    List.replicate 5 (.processingStep 0) ++
    [.buffer [512, 600, 640] .whole 6, .publish, .stopCapture, .guiStep none, .guiStep none]

def tick : List (Action Unit) :=
  [.collectFinishedCapture, .guiStep none, .guiStep none, .guiStep none]

/-- The file is detached before the statistics are read. -/
def patient : List (Action Unit) :=
  stopping ++ List.replicate 5 (.processingStep 0) ++ [.readStats, .checkDurationLimit 0 1] ++ tick

theorem patient_described :
    (machine.trace (opening ⟨"", ()⟩) patient).2.sidecars.length = 1 ∧
      (machine.trace (opening ⟨"", ()⟩) patient).2.sidecars[0]? =
        some ⟨true, 512, 640, (24128, 3), 0, 0⟩ := by
  have run := Run.of_trace machine careful (opening ⟨"", ()⟩) patient (by decide) careful_sound
  have described := sidecars_described run
  exact ⟨described.1.trans (by decide), by decide⟩

/-- A last buffer comes, and the detach, after the tick has read the statistics. -/
def early : List (Action Unit) :=
  stopping ++ [.readStats, .checkDurationLimit 0 1, .buffer [0, 1023] .whole 4, .publish] ++
    List.replicate 5 (.processingStep 0) ++ tick

/-- The sidecar is of the buffers before the last. -/
theorem early_misdescribed : ¬ ∀ (metadata : Metadata Unit) (events : List Unit)
    (s : Session Unit), Run machine Any (opening metadata) events s → Described s := by
  intro claim
  have run := Run.of_trace machine (fun _ _ => true) (opening ⟨"", ()⟩) early (by decide)
    fun _ _ _ => trivial
  have told := (claim _ _ _ run).2 0 ⟨true, 512, 640, (24128, 3), 0, 0⟩ (by decide)
  exact absurd told (by decide)

end SidecarSignal
