import DomesdayDuplicator.Capture.CaptureSession

/-!
# The limit on a capture's duration

`CheckDurationLimit` compares the limit with the samples of whichever sink was in place
when the statistics were published. Where that is the capture's own sink a capture is
stopped only after the samples it was to have.
-/

namespace DurationLimit

open Execution SpanAccount CaptureSession
open CaptureController (Desk Metadata Path)
open SinkChange (Sink)

universe u

variable {μ : Type u}

/-- Statistics that a sink was published with count no more than its file holds. -/
def Backed (a : Account) (stats : Stats) : Prop :=
  ∀ f, stats.sink = some (.attached f) → stats.samplesWritten ≤ (a.contents f).length

structure Honest (s : Session μ) : Prop where
  published : Backed s.account s.account.stats
  held : ∀ stats, s.tick.stats = some stats → Backed s.account stats
  stops : ∀ stop ∈ s.stops, stop.limit ≤ stop.given

/-- A check that finds its number reads it in statistics of the capture's own sink. -/
def Own (s : Session μ) : Action μ → Prop
  | .checkDurationLimit seconds factor => ∀ stats, s.tick = .read stats →
      s.reached seconds factor stats →
        stats.sink = some (.attached (s.desk.files.length - 1))
  | _ => True

theorem Backed.grown {a b : Account} {stats : Stats} (h : Backed a stats)
    (grows : ∀ k, (a.contents k).length ≤ (b.contents k).length) : Backed b stats :=
  fun f sink => Nat.le_trans (h f sink) (grows f)

theorem published_backed (sink : Option (Sink Nat)) (a : Account) :
    Backed (a.publish sink) (a.publish sink).stats := by
  intro f same
  have own : sink = some (.attached f) := same
  subst own
  exact Nat.mod_le _ _

/-- A step that writes at most, and leaves what was published and what was stopped alone. -/
theorem Honest.grown {s t : Session μ} (h : Honest s) (stats : t.account.stats = s.account.stats)
    (grows : ∀ k, (s.account.contents k).length ≤ (t.account.contents k).length)
    (tick : t.tick = s.tick) (stops : t.stops = s.stops) : Honest t := by
  constructor
  · rw [stats]
    exact h.published.grown grows
  · rw [tick]
    exact fun held copy => (h.held held copy).grown grows
  · rw [stops]
    exact h.stops

theorem Honest.publish {s : Session μ} (h : Honest s) (desk : Desk μ) (sink : Option (Sink Nat)) :
    Honest { s with desk, account := s.account.publish sink } := by
  constructor
  · exact published_backed sink s.account
  · exact fun held copy => (h.held held copy).grown fun _ => Nat.le_refl _
  · exact h.stops

theorem started_same (works : Bool) (s : Session μ) :
    (s.started works).stats = s.account.stats ∧
      (s.started works).contents = s.account.contents := by
  simp only [Session.started]
  split
  · exact ⟨rfl, rfl⟩
  · exact ⟨rfl, rfl⟩

theorem Honest.checkDurationLimit {s : Session μ} (h : Honest s) {seconds : Int} {factor : Nat}
    (own : Own s (.checkDurationLimit seconds factor)) :
    Honest (s.checkDurationLimit seconds factor) := by
  cases copy : s.tick with
  | read stats =>
    have backed : Backed s.account stats := h.held stats (by rw [copy]; rfl)
    have held : ∀ held, (Tick.checked stats).stats = some held → Backed s.account held := by
      intro held same
      rwa [← Option.some.inj same]
    simp only [Session.checkDurationLimit, copy]
    split
    · rename_i reached
      refine ⟨h.published, held, ?_⟩
      intro stop among
      rcases List.mem_append.mp among with before | now
      · exact h.stops stop before
      · rw [List.mem_singleton.mp now]
        exact Nat.le_trans reached.2.2 (backed _ (own stats copy reached))
    · exact ⟨h.published, held, h.stops⟩
  | _ => simpa only [Session.checkDurationLimit, copy] using h

theorem honest_step {s : Session μ} (h : Honest s) {a : Action μ} (own : Own s a) :
    Honest (s.step a) := by
  have same : ∀ k, (s.account.contents k).length ≤ (s.account.contents k).length :=
    fun _ => Nat.le_refl _
  cases a with
  | startMonitoring works =>
    obtain ⟨stats, contents⟩ := started_same works s
    simp only [Session.step]
    split
    · exact h.grown stats (by rw [contents]; exact same) rfl rfl
    · exact h
  | startCapture works file =>
    obtain ⟨stats, contents⟩ := started_same works s
    simp only [Session.step]
    split
    · split
      · exact h.grown rfl same rfl rfl
      · exact h.grown stats (by rw [contents]; exact same) rfl rfl
    · exact h
  | stopCapture =>
    simp only [Session.step]
    split
    · exact h.grown rfl same rfl rfl
    · exact h
  | stopMonitoring => exact h
  | readStats =>
    simp only [Session.step]
    split
    · refine ⟨h.published, ?_, h.stops⟩
      intro stats copy
      rw [← Option.some.inj copy]
      exact h.published
    · exact h
  | checkDurationLimit seconds factor =>
    simp only [Session.step]
    split
    · exact h.checkDurationLimit own
    · exact h
  | collectFinishedCapture =>
    cases copy : s.tick with
    | checked stats =>
      simp only [Session.step, copy]
      split
      · refine ⟨h.published, ?_, h.stops⟩
        exact fun held same => h.held held (by rw [copy]; exact same)
      · exact h
    | _ => simpa only [Session.step, copy] using h
  | guiStep renamed =>
    refine ⟨h.published, ?_, h.stops⟩
    intro stats copy
    by_cases checking : s.desk.gui = .checking
    · simp [Session.step, Session.guiStep, checking, Tick.stats] at copy
    · have kept : s.tick.stats = some stats := by
        simpa only [Session.step, Session.guiStep, if_neg checking] using copy
      exact h.held stats kept
  | processingStep flushed =>
    simp only [Session.step]
    split
    · obtain ⟨contents, stats⟩ := passStep_same s.desk.sinks s.account
      exact h.grown stats (by rw [contents]; exact same) rfl rfl
    · exact h
  | buffer values fate bytes =>
    simp only [Session.step]
    split
    · exact h.grown (buffer_stats _ _ _ _) (buffer_grows _ _ _ _) rfl rfl
    · exact h
  | publish =>
    simp only [Session.step]
    split
    · exact h.publish s.desk s.desk.sinks.sink
    · exact h
  | leave =>
    simp only [Session.step]
    split
    · exact h.grown rfl same rfl rfl
    · exact h
  | close flushed =>
    simp only [Session.step]
    split
    · exact h.publish (s.desk.step (.close flushed)) s.desk.sinks.sink
    · exact h

theorem honest_opening (metadata : Metadata μ) : Honest (opening metadata) :=
  ⟨nofun, nofun, nofun⟩

/-- A capture that its limit has stopped had been given the limit's number of samples. -/
theorem stopped_after_limit {metadata : Metadata μ} {events : List Unit} {s : Session μ}
    (run : Run machine Own (opening metadata) events s) :
    ∀ stop ∈ s.stops, stop.limit ≤ stop.given :=
  (run.invariant (honest_opening metadata) fun _ _ honest own => honest_step honest own).stops

/-! ## Two captures with a limit -/

/-- The samples of a slot of the ring. -/
def slot : List Nat := List.replicate 1048576 512

theorem slot_length : slot.length = 1048576 := List.length_replicate

/-- The stream goes on: the processing thread waits for the next slot. -/
structure Streams (s : Session μ) : Prop where
  ready : s.ready = true
  pass : s.desk.sinks.pass = .idle

/-- `t` is `s` after `k` slots, each published. -/
structure Fed (k : Nat) (s t : Session μ) : Prop where
  streams : Streams t
  sinks : t.desk.sinks = s.desk.sinks
  gui : t.desk.gui = s.desk.gui
  capturing : t.desk.capturing = s.desk.capturing
  monitoring : t.desk.monitoring = s.desk.monitoring
  files : t.desk.files.length = s.desk.files.length
  tick : t.tick = s.tick
  stops : t.stops = s.stops
  null : s.desk.sinks.sink = some .null →
    t.account.nullSamples = s.account.nullSamples + k * 1048576
  written : ∀ f, (t.account.contents f).length = (s.account.contents f).length +
    if s.desk.sinks.sink = some (.attached f) then k * 1048576 else 0
  published : 0 < k → t.account.stats.sink = s.desk.sinks.sink ∧
    t.account.stats.samplesWritten = t.account.samplesWritten s.desk.sinks.sink

/-- The sink in place is given a slot, and the statistics are published. -/
def feed (s : Session μ) : Session μ := (s.step (.buffer slot .whole 0)).step .publish

theorem feed_streams {s : Session μ} (streams : Streams s) :
    feed s = { s with
      desk := s.desk.write 1048576 0
      account := (s.account.buffer s.desk.sinks.sink slot .whole).publish s.desk.sinks.sink } := by
  obtain ⟨ready, pass⟩ := streams
  have on := ready
  simp only [Session.ready, Bool.and_eq_true] at on
  obtain ⟨⟨-, -, -, running, -, -, -⟩, sinks⟩ := write_apart 1048576 0 s.desk
  have one : s.step (.buffer slot .whole 0) =
      { s with
        desk := s.desk.write 1048576 0
        account := s.account.buffer s.desk.sinks.sink slot .whole } := by
    simp only [Session.step, ready, pass, possible, and_self, if_true, Desk.step, on.1.1.1,
      on.1.1.2, Fate.written, slot_length]
  have due : (s.account.buffer s.desk.sinks.sink slot .whole).due = true := by
    cases s.desk.sinks.sink with
    | none => rfl
    | some sink => cases sink <;> rfl
  rw [feed, one]
  simp only [Session.step, running, on.1.1.1, due, and_self, if_true, sinks]

theorem feed_fed {s : Session μ} (streams : Streams s) : Fed 1 s (feed s) := by
  rw [feed_streams streams]
  obtain ⟨⟨gui, capturing, monitoring, running, processing, files, -⟩, sinks⟩ :=
    write_apart 1048576 0 s.desk
  obtain ⟨ready, pass⟩ := streams
  have failed : (s.account.buffer s.desk.sinks.sink slot .whole).failed = false := by
    match s.desk.sinks.sink with
    | some (.attached f) => rfl
    | some .null => rfl
    | none => rfl
  constructor
  · simp only [Session.ready, Bool.and_eq_true] at ready
    constructor
    · simp only [Session.ready, running, processing, ready.1.1.1, ready.1.1.2, Account.publish,
        failed, Bool.not_false, Bool.and_self]
    · rw [sinks]
      exact pass
  · exact sinks
  · exact gui
  · exact capturing
  · exact monitoring
  · exact files
  · rfl
  · rfl
  · intro null
    have counted : ((s.account.buffer (some .null) slot .whole).publish (some .null)).nullSamples =
        s.account.nullSamples + slot.length := rfl
    rw [null, counted, slot_length, Nat.one_mul]
  · intro f
    have contents := buffer_contents s.desk.sinks.sink slot .whole s.account f
    rw [Account.publish]
    dsimp only
    rw [contents]
    by_cases place : s.desk.sinks.sink = some (.attached f)
    · rw [if_pos (storing_eq.mpr place), if_pos place, List.length_append, Fate.written,
        slot_length, Nat.one_mul]
    · rw [if_neg (mt storing_eq.mp place), if_neg place]
      rfl
  · intro _
    exact ⟨rfl, rfl⟩

theorem Fed.trans {j k : Nat} {s t u : Session μ} (first : Fed j s t) (second : Fed k t u)
    (some : 0 < k) : Fed (j + k) s u := by
  constructor
  · exact second.streams
  · exact second.sinks.trans first.sinks
  · exact second.gui.trans first.gui
  · exact second.capturing.trans first.capturing
  · exact second.monitoring.trans first.monitoring
  · exact second.files.trans first.files
  · exact second.tick.trans first.tick
  · exact second.stops.trans first.stops
  · intro null
    rw [second.null (by rw [first.sinks, null]), first.null null]
    omega
  · intro f
    rw [second.written f, first.written f, first.sinks]
    split
    · omega
    · omega
  · intro _
    rw [← first.sinks]
    exact second.published some

theorem fed {s : Session μ} (streams : Streams s) (k : Nat) :
    ∃ events t, Run machine Own s events t ∧ Fed k s t := by
  induction k with
  | zero =>
    exact ⟨[], s, .refl, streams, rfl, rfl, rfl, rfl, rfl, rfl, rfl, by simp, by simp, by simp⟩
  | succ k ih =>
    obtain ⟨events, t, run, fed⟩ := ih
    have given := Run.snoc (Action.buffer slot .whole 0) run trivial
    have told := Run.snoc Action.publish given trivial
    exact ⟨_, _, told, fed.trans (feed_fed fed.streams) Nat.one_pos⟩

/-- A tick that reads enough samples stops the capture. -/
theorem check_stops (seconds : Int) (factor : Nat) {s : Session μ} (idle : s.idle)
    (capturing : s.desk.capturing = true) (limited : 0 < seconds)
    (enough : limitSamples seconds factor ≤ s.account.stats.samplesWritten) :
    ((s.step .readStats).step (.checkDurationLimit seconds factor)).stops =
      s.stops ++ [⟨s.desk.files.length - 1, limitSamples seconds factor,
        (s.account.contents (s.desk.files.length - 1)).length⟩] := by
  have read : s.step .readStats = { s with tick := .read s.account.stats } := by
    simp only [Session.step, if_pos idle]
  have reached : Session.reached seconds factor s.account.stats
      { s with tick := .read s.account.stats } := ⟨capturing, limited, enough⟩
  rw [read]
  simp only [Session.step, idle.2, if_true, Session.checkDurationLimit, if_pos reached]

/-- A capture begun while the stream is monitored leaves the statistics as they are. -/
theorem begins {s : Session μ} (idle : s.idle) (monitoring : s.desk.monitoring = true)
    (capturing : s.desk.capturing = false) (file : Path × μ) :
    ∃ t, ((s.step (.startCapture true (some file))).step (.guiStep none)).step (.guiStep none) = t ∧
      t.idle ∧ t.desk.capturing = true ∧ t.account = s.account ∧ t.stops = s.stops ∧
      t.desk.files.length = s.desk.files.length + 1 := by
  have free : s.tick.stats = none := idle.1
  have begun : s.step (.startCapture true (some file)) =
      { s with
        desk := { s.desk.openCaptureFile file.1 file.2 with
          sinks := (SinkChange.attachSink s.desk.files.length s.desk.sinks).1
          gui := .starting } } := by
    simp [Session.step, idle, idle.2, Desk.step, Desk.startCapture, Desk.startMonitoring,
      capturing, monitoring, Session.started]
  refine ⟨_, rfl, ?_⟩
  rw [begun]
  simp [Session.step, Session.guiStep, Desk.step, Desk.guiStep, SinkChange.attachSink,
    SinkChange.callerStep, Session.idle, free, Desk.openCaptureFile]

/-- Whatever does not check the limit is careful. -/
def quiet : Action Unit → Bool
  | .checkDurationLimit _ _ => false
  | _ => true

theorem quiet_own (s : Session Unit) (a : Action Unit) (h : quiet a = true) : Own s a := by
  cases a with
  | checkDurationLimit seconds factor => cases h
  | _ => trivial

/-- A capture is begun, and its file attached. -/
def beginning : List (Action Unit) :=
  [.startCapture true (some (⟨"captures", "a"⟩, ())), .guiStep none, .guiStep none] ++
    List.replicate 5 (.processingStep 0)

theorem capture_stopped : ∃ (events : List Unit) (s : Session Unit),
    Run machine Own (opening ⟨"", ()⟩) events s ∧ s.stops = [⟨0, 20000000, 20971520⟩] ∧
      ∀ stop ∈ s.stops, stop.limit ≤ stop.given := by
  have start := Run.of_trace machine (fun _ => quiet) (opening ⟨"", ()⟩) beginning (by decide)
    quiet_own
  generalize begun : (machine.trace (opening ⟨"", ()⟩) beginning).2 = s at start
  have sink : s.desk.sinks.sink = some (.attached 0) := by rw [← begun]; decide
  obtain ⟨events, t, run, fed⟩ := fed (s := s) (by rw [← begun]; exact ⟨by decide, by decide⟩) 20
  have given : (t.account.contents 0).length = 20971520 := by
    rw [fed.written 0, sink, ← begun]
    decide
  obtain ⟨source, published⟩ := fed.published (by decide)
  have count : t.account.stats.samplesWritten = 20971520 := by
    rw [published, sink, Account.samplesWritten, given, Nat.mod_eq_of_lt (by decide)]
  have files : t.desk.files.length = 1 := by rw [fed.files, ← begun]; decide
  have idle : t.idle := by
    rw [Session.idle, fed.tick, fed.gui, ← begun]
    decide
  have stops := check_stops 1 2 idle
    (by rw [fed.capturing, ← begun]; decide) (by decide) (by rw [count]; decide)
  rw [fed.stops, files, Nat.sub_self, given] at stops
  have read : t.step .readStats = { t with tick := .read t.account.stats } := by
    simp only [Session.step, if_pos idle]
  have fetched := Run.snoc Action.readStats (start.append run) trivial
  have own : Own (t.step .readStats) (.checkDurationLimit 1 2) := by
    rw [read]
    intro stats copy _
    obtain rfl : t.account.stats = stats := by simpa using copy
    rw [source, sink, files]
  have checked := Run.snoc (Action.checkDurationLimit 1 2) fetched own
  refine ⟨_, _, checked, stops.trans ?_, stopped_after_limit checked⟩
  rw [← begun]
  decide

/-- A capture is begun, and the tick comes before its file is attached. -/
def hasty : List (Action Unit) :=
  [.startCapture true (some (⟨"captures", "a"⟩, ())), .guiStep none, .guiStep none, .readStats,
    .checkDurationLimit 1 2]

/-- The first capture is stopped by what the null sink had counted before it. -/
theorem stopped_at_once : ¬ ∀ (metadata : Metadata Unit) (events : List Unit) (s : Session Unit),
    Run machine Any (opening metadata) events s → ∀ stop ∈ s.stops, stop.limit ≤ stop.given := by
  intro claim
  have start := Run.of_trace machine (fun _ => quiet) (opening ⟨"", ()⟩) [.startMonitoring true]
    (by decide) quiet_own
  generalize begun : (machine.trace (opening ⟨"", ()⟩) [.startMonitoring true]).2 = s at start
  have sink : s.desk.sinks.sink = some .null := by rw [← begun]; decide
  obtain ⟨events, t, run, fed⟩ := fed (s := s) (by rw [← begun]; exact ⟨by decide, by decide⟩) 20
  have count : t.account.stats.samplesWritten = 20971520 := by
    rw [(fed.published (by decide)).2, sink, Account.samplesWritten, fed.null sink, ← begun]
    decide
  have whole := (start.append run).mono Any fun _ _ _ => trivial
  have idle : t.idle := by
    rw [Session.idle, fed.tick, fed.gui, ← begun]
    decide
  obtain ⟨u, attached, free, capturing, account, stops, files⟩ := begins idle
    (by rw [fed.monitoring, ← begun]; decide) (by rw [fed.capturing, ← begun]; decide)
    (⟨"captures", "a"⟩, ())
  have run := whole.append (Run.of_trace machine (fun _ _ => true) t hasty rfl fun _ _ _ => trivial)
  have stopped := check_stops 1 2 free capturing (by decide)
    (by rw [account, count]; decide)
  rw [account, files, fed.files, stops, fed.stops, Nat.add_sub_cancel] at stopped
  have nothing : (t.account.contents 0).length = 0 := by
    rw [fed.written 0, sink, ← begun]
    decide
  have first : s.desk.files.length = 0 ∧ s.stops = [] := by
    rw [← begun]
    decide
  have limit : limitSamples 1 2 = 20000000 := by decide
  rw [first.1, nothing, first.2, List.nil_append, limit] at stopped
  have ended : (machine.trace t hasty).2.stops = [⟨0, 20000000, 0⟩] := by
    rw [← stopped, ← attached]
    rfl
  have early := claim _ _ _ run ⟨0, 20000000, 0⟩ (by rw [ended]; exact List.mem_singleton.mpr rfl)
  exact absurd early (by decide)

end DurationLimit
