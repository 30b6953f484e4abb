import DomesdayDuplicator.Capture.CaptureNaming
import DomesdayDuplicator.Foundations.Execution

/-!
# A folder of captures

`CaptureController` on the files of a folder: a capture's file is opened under a name made
unique, renamed for its duration when it is finished, and given a sidecar. No other
program writes there. A capture may be started before the one before it is finished, and
`FinishCaptureFile` takes up whatever path the controller holds by then.
-/

namespace CaptureFolder

open CaptureNaming Execution

/-- What was there before a capture started, and the files it has opened, truncated,
renamed over or written since. -/
structure Capture where
  before : List Path
  touched : List Path
  sidecar : Option Path
  finished : Bool
  deriving DecidableEq

/-- The captures are numbered in the order they are started. -/
structure Folder where
  files : List Path
  capturing : Bool
  capturePath : Path
  captures : List Capture
  deriving DecidableEq

/-- What a name is made of when a capture is started. -/
structure Request where
  directory : Path
  fields : CaptureNamingFields
  typedName : Text
  testMode : Bool
  when : Option Time
  format : CaptureOutputFormat

def Request.wanted (r : Request) : Path :=
  buildCapturePath r.directory (buildCaptureStem r.fields r.typedName r.testMode r.when) r.testMode
    r.when r.format

/-- What `FinishCaptureFile` finds: the naming as it is by then, the length in whole
seconds, and whether the file can be renamed and the sidecar be opened. -/
structure Ending where
  appendDuration : Bool
  seconds : Option Nat
  renames : Bool
  writes : Bool
  deriving DecidableEq

/-- The name with the duration, where the file gets one. -/
def Ending.wanted (e : Ending) (file : Path) : Option Path :=
  if e.appendDuration ∧ e.seconds.isSome ∧ e.renames then
    some (appendDurationToStem (stripCaptureFileSuffix file) e.seconds ++
      matchedCaptureFileSuffix file)
  else none

inductive Action where
  | startCapture (request : Request) (opens : Bool)
  | stopCapture
  | finishCaptureFile (capture : Nat) (ending : Ending)

namespace Folder

def start (files : List Path) : Folder := ⟨files, false, [], []⟩

/-- A sink truncates the file it opens. -/
def startCapture (r : Request) (opens : Bool) (d : Folder) : Folder :=
  if d.capturing ∨ ¬ opens then d
  else
    let path := makeUniqueCapturePath d.files.contains r.wanted
    { files := path :: d.files
      capturing := true
      capturePath := path
      captures := d.captures ++ [⟨d.files, [path], none, false⟩] }

/-- `rename` replaces what is there. -/
def rename (e : Ending) (d : Folder) : Folder :=
  match e.wanted d.capturePath with
  | none => d
  | some wanted =>
    let renamed := makeUniqueCapturePath d.files.contains wanted
    { d with
      files := renamed :: d.files.filter (· ≠ d.capturePath)
      capturePath := renamed }

/-- What a rename has put a file over. -/
def renamedTo (e : Ending) (d : Folder) : List Path :=
  match e.wanted d.capturePath with
  | none => []
  | some _ => [(d.rename e).capturePath]

/-- The sidecar beside the file the controller holds. -/
def writeMetadataSidecar (k : Nat) (renamed : List Path) (writes : Bool) (d : Folder) : Folder :=
  let sidecar := captureMetadataPath d.capturePath
  { d with
    files := if writes then sidecar :: d.files else d.files
    captures := d.captures.modify k fun c =>
      { c with
        touched := c.touched ++ renamed ++ (if writes then [sidecar] else [])
        sidecar := if writes then some sidecar else none
        finished := true } }

def finishCaptureFile (k : Nat) (e : Ending) (d : Folder) : Folder :=
  (d.rename e).writeMetadataSidecar k (d.renamedTo e) e.writes

/-- A capture is finished once, and not while it is the one that is recorded. -/
def toFinish (k : Nat) (d : Folder) : Bool :=
  match d.captures[k]? with
  | none => false
  | some c => ¬ c.finished ∧ ¬ (d.capturing ∧ k + 1 = d.captures.length)

def step (d : Folder) : Action → Folder
  | .startCapture request opens => d.startCapture request opens
  | .stopCapture => { d with capturing := false }
  | .finishCaptureFile k e => if d.toFinish k then d.finishCaptureFile k e else d

end Folder

def machine : Machine Folder Action Unit := ⟨fun d a => (d.step a, ())⟩

/-- No capture has touched what was there before it, and none has another's sidecar. -/
structure Preserved (d : Folder) : Prop where
  untouched : ∀ c ∈ d.captures, ∀ p ∈ c.touched, p ∉ c.before
  distinct : ∀ (i j : Nat) (c e : Capture) (p : Path), d.captures[i]? = some c →
    d.captures[j]? = some e → c.sidecar = some p → e.sidecar = some p → i = j

/-- A name is left for each file that is opened or renamed, and the name that is taken has
no sidecar yet. -/
def Careful (d : Folder) : Action → Prop
  | .startCapture request opens => d.capturing = false → opens = true →
      ∃ n < kMaximumNameAttempts, candidate request.wanted n ∉ d.files
  | .stopCapture => True
  | .finishCaptureFile _ e =>
    match e.wanted d.capturePath with
    | none => e.writes = true → captureMetadataPath d.capturePath ∉ d.files
    | some wanted => ∃ n, FirstFree d.files.contains wanted n ∧
        (e.writes = true → captureMetadataPath (candidate wanted n) ∉ d.files)

/-! ## What is kept -/

structure Kept (d : Folder) : Prop where
  preserved : Preserved d
  remains : ∀ c ∈ d.captures, ∀ p ∈ c.before, p ∈ d.files
  current : ∀ c ∈ d.captures, d.capturePath ∉ c.before
  sidecars : ∀ c ∈ d.captures, ∀ p, c.sidecar = some p → p ∈ d.files ∧ p ≠ d.capturePath

theorem kept_start (files : List Path) : Kept (.start files) := by
  constructor
  · constructor
    · exact fun c member => absurd member List.not_mem_nil
    · intro i j c e p there
      simp [Folder.start] at there
  · exact fun c member => absurd member List.not_mem_nil
  · exact fun c member => absurd member List.not_mem_nil
  · exact fun c member => absurd member List.not_mem_nil

theorem not_mem_of_first {files : List Path} {wanted : Path} {n : Nat}
    (first : FirstFree files.contains wanted n) : candidate wanted n ∉ files := by
  have free := first.free
  simpa using free

theorem exists_first {files : List Path} {wanted : Path} {n : Nat}
    (tried : n < kMaximumNameAttempts) (free : candidate wanted n ∉ files) :
    ∃ m, FirstFree files.contains wanted m :=
  exists_firstFree tried (by simpa using free)

variable {d : Folder}

/-- A capture begins with a file that was not there. -/
theorem Kept.startCapture (h : Kept d) {r : Request} {opens : Bool}
    (careful : Careful d (.startCapture r opens)) : Kept (d.startCapture r opens) := by
  rw [Folder.startCapture]
  split
  · exact h
  rename_i begins
  rw [not_or, not_not] at begins
  obtain ⟨n, tried, free⟩ := careful (Bool.eq_false_iff.mpr begins.left) begins.right
  obtain ⟨m, first⟩ := exists_first tried free
  have fresh : makeUniqueCapturePath d.files.contains r.wanted ∉ d.files := by
    rw [first.chosen]
    exact not_mem_of_first first
  generalize makeUniqueCapturePath d.files.contains r.wanted = path at fresh
  constructor
  · constructor
    · intro c member p touched
      rcases List.mem_append.mp member with earlier | this
      · exact h.preserved.untouched c earlier p touched
      · obtain rfl := List.mem_singleton.mp this
        obtain rfl := List.mem_singleton.mp touched
        exact fresh
    · intro i j c e p first second mine other
      have new : ∀ (i : Nat) (c : Capture), (d.captures ++ [⟨d.files, [path], none, false⟩])[i]? =
          some c → c.sidecar = some p → d.captures[i]? = some c := by
        intro i c there mine
        rw [List.getElem?_append] at there
        split at there
        · exact there
        · rw [List.getElem?_singleton] at there
          split at there
          · obtain rfl := Option.some.inj there
            cases mine
          · cases there
      exact h.preserved.distinct i j c e p (new i c first mine) (new j e second other) mine other
  · intro c member p before
    rcases List.mem_append.mp member with earlier | this
    · exact List.mem_cons_of_mem _ (h.remains c earlier p before)
    · obtain rfl := List.mem_singleton.mp this
      exact List.mem_cons_of_mem _ before
  · intro c member before
    rcases List.mem_append.mp member with earlier | this
    · exact fresh (h.remains c earlier _ before)
    · obtain rfl := List.mem_singleton.mp this
      exact fresh before
  · intro c member p sidecar
    rcases List.mem_append.mp member with earlier | this
    · have there := (h.sidecars c earlier p sidecar).left
      refine ⟨List.mem_cons_of_mem _ there, ?_⟩
      rintro rfl
      exact fresh there
    · obtain rfl := List.mem_singleton.mp this
      cases sidecar

theorem Kept.stopCapture (h : Kept d) : Kept { d with capturing := false } :=
  ⟨⟨h.preserved.untouched, h.preserved.distinct⟩, h.remains, h.current, h.sidecars⟩

/-- A rename to a name that is free takes nothing away but the name the file had. -/
theorem Kept.rename (h : Kept d) {e : Ending} (free : ∀ wanted, e.wanted d.capturePath = some wanted →
    ∃ n, FirstFree d.files.contains wanted n) : Kept (d.rename e) := by
  rw [Folder.rename]
  split
  · exact h
  rename_i wanted renames
  obtain ⟨n, first⟩ := free wanted renames
  dsimp only
  rw [first.chosen]
  have fresh := not_mem_of_first first
  constructor
  · exact ⟨h.preserved.untouched, h.preserved.distinct⟩
  · intro c member p before
    refine List.mem_cons_of_mem _ (List.mem_filter.mpr ⟨h.remains c member p before, ?_⟩)
    rw [decide_eq_true_eq]
    rintro rfl
    exact h.current c member before
  · intro c member before
    exact fresh (h.remains c member _ before)
  · intro c member p sidecar
    obtain ⟨there, other⟩ := h.sidecars c member p sidecar
    refine ⟨List.mem_cons_of_mem _ (List.mem_filter.mpr ⟨there, decide_eq_true other⟩), ?_⟩
    rintro rfl
    exact fresh there

theorem mem_modify {α : Type} {l : List α} {k : Nat} {f : α → α} {x : α} (member : x ∈ l.modify k f) :
    x ∈ l ∨ ∃ y ∈ l, x = f y := by
  obtain ⟨i, there⟩ := List.mem_iff_getElem?.mp member
  rw [List.getElem?_modify] at there
  obtain ⟨y, old, rfl⟩ := Option.map_eq_some_iff.mp there
  have mine := List.mem_of_getElem? old
  by_cases hit : k = i
  · exact Or.inr ⟨y, mine, if_pos hit⟩
  · exact Or.inl (by rwa [if_neg hit])

/-- A sidecar that is not there yet is one more file. -/
theorem Kept.writeMetadataSidecar (h : Kept d) {k : Nat} {renamed : List Path} {writes : Bool}
    (moved : ∀ p ∈ renamed, p = d.capturePath)
    (fresh : writes = true → captureMetadataPath d.capturePath ∉ d.files) :
    Kept (d.writeMetadataSidecar k renamed writes) := by
  have more : ∀ p ∈ d.files, p ∈ (d.writeMetadataSidecar k renamed writes).files := by
    intro p there
    simp only [Folder.writeMetadataSidecar]
    split
    · exact List.mem_cons_of_mem _ there
    · exact there
  constructor
  · constructor
    · intro c member p touched
      rcases mem_modify member with old | ⟨y, old, rfl⟩
      · exact h.preserved.untouched c old p touched
      · rcases List.mem_append.mp touched with before | written
        · rcases List.mem_append.mp before with earlier | now
          · exact h.preserved.untouched y old p earlier
          · rw [moved p now]
            exact h.current y old
        · split at written
          · rename_i writes
            obtain rfl := List.mem_singleton.mp written
            exact fun before => fresh writes (h.remains y old _ before)
          · exact absurd written List.not_mem_nil
    · -- only the capture that is finished has a sidecar that was not there
      have known : ∀ (i : Nat) (c : Capture) (p : Path),
          (d.writeMetadataSidecar k renamed writes).captures[i]? = some c → c.sidecar = some p →
          (i = k ∧ p ∉ d.files) ∨ ∃ y, d.captures[i]? = some y ∧ y.sidecar = some p := by
        intro i c p there mine
        rw [Folder.writeMetadataSidecar, List.getElem?_modify] at there
        obtain ⟨y, old, rfl⟩ := Option.map_eq_some_iff.mp there
        by_cases hit : k = i
        · rw [if_pos hit] at mine
          refine Or.inl ⟨hit.symm, ?_⟩
          dsimp only at mine
          split at mine
          · rename_i writes
            obtain rfl := Option.some.inj mine
            exact fresh writes
          · cases mine
        · rw [if_neg hit] at mine
          exact Or.inr ⟨y, old, mine⟩
      intro i j c e p first second mine other
      rcases known i c p first mine with ⟨rfl, new⟩ | ⟨y, old, was⟩
      · rcases known j e p second other with ⟨rfl, -⟩ | ⟨z, there, had⟩
        · rfl
        · exact absurd (h.sidecars z (List.mem_of_getElem? there) p had).left new
      · rcases known j e p second other with ⟨rfl, new⟩ | ⟨z, there, had⟩
        · exact absurd (h.sidecars y (List.mem_of_getElem? old) p was).left new
        · exact h.preserved.distinct i j y z p old there was had
  · intro c member p before
    rcases mem_modify member with old | ⟨y, old, rfl⟩
    · exact more p (h.remains c old p before)
    · exact more p (h.remains y old p before)
  · intro c member before
    rcases mem_modify member with old | ⟨y, old, rfl⟩
    · exact h.current c old before
    · exact h.current y old before
  · intro c member p sidecar
    rcases mem_modify member with old | ⟨y, old, rfl⟩
    · obtain ⟨there, other⟩ := h.sidecars c old p sidecar
      exact ⟨more p there, other⟩
    · dsimp only at sidecar
      split at sidecar
      · rename_i writes
        obtain rfl := Option.some.inj sidecar
        refine ⟨?_, captureMetadataPath_ne _⟩
        simp only [Folder.writeMetadataSidecar, if_pos writes]
        exact List.mem_cons_self ..
      · cases sidecar

theorem Kept.finishCaptureFile (h : Kept d) {k : Nat} {e : Ending}
    (careful : Careful d (.finishCaptureFile k e)) : Kept (d.finishCaptureFile k e) := by
  rw [Folder.finishCaptureFile]
  simp only [Careful] at careful
  cases wanted : e.wanted d.capturePath with
  | none =>
    rw [wanted] at careful
    have stays : d.rename e = d := by rw [Folder.rename, wanted]
    rw [Folder.renamedTo, wanted, stays]
    exact h.writeMetadataSidecar (fun p none => absurd none List.not_mem_nil) careful
  | some wanted' =>
    rw [wanted] at careful
    obtain ⟨n, first, alone⟩ := careful
    have path : (d.rename e).capturePath = candidate wanted' n := by
      simp only [Folder.rename, wanted, first.chosen]
    have kept : Kept (d.rename e) := h.rename fun w same => by
      obtain rfl := Option.some.inj (wanted.symm.trans same)
      exact ⟨n, first⟩
    refine kept.writeMetadataSidecar (fun p member => ?_) (fun writes there => ?_)
    · rw [Folder.renamedTo, wanted] at member
      exact List.mem_singleton.mp member
    · rw [path] at there
      simp only [Folder.rename, wanted, first.chosen] at there
      rcases List.mem_cons.mp there with same | old
      · exact captureMetadataPath_ne _ same
      · exact alone writes (List.mem_filter.mp old).left

/-- In a run in which a name is always left, and the name that is taken has no sidecar yet,
no capture destroys what was there before it, and no two have one sidecar. -/
theorem captures_preserved (files : List Path) {events : List Unit} {d : Folder}
    (run : Run machine Careful (.start files) events d) : Preserved d := by
  have kept : Kept d := run.invariant (kept_start files) fun d a kept careful => by
    cases a with
    | startCapture request opens => exact kept.startCapture careful
    | stopCapture => exact kept.stopCapture
    | finishCaptureFile k e =>
      simp only [machine, Folder.step]
      split
      · exact kept.finishCaptureFile careful
      · exact kept
  exact kept.preserved

/-- With all the names taken, the file of the last one is truncated. -/
theorem startCapture_taken {r : Request} (idle : d.capturing = false)
    (taken : ∀ n < kMaximumNameAttempts, candidate r.wanted n ∈ d.files) :
    ¬ Preserved (d.startCapture r true) := by
  intro preserved
  have there : d.files.contains (makeUniqueCapturePath d.files.contains r.wanted) = true :=
    makeUnique_taken fun n tried => by simpa using taken n tried
  have begins : ¬ (d.capturing = true ∨ ¬ true = true) := by simp [idle]
  rw [Folder.startCapture, if_neg begins] at preserved
  refine preserved.untouched _ (List.mem_append_right _ (List.mem_singleton_self _)) _
    (List.mem_singleton_self _) ?_
  simpa using there

/-! ## Runs that are computed -/

/-- `Careful` where the first name that is tried is free. -/
def careful (d : Folder) : Action → Bool
  | .startCapture request _ => ¬ d.files.contains request.wanted
  | .stopCapture => true
  | .finishCaptureFile _ e =>
    match e.wanted d.capturePath with
    | none => ¬ d.files.contains (captureMetadataPath d.capturePath)
    | some wanted => ¬ d.files.contains wanted ∧ ¬ d.files.contains (captureMetadataPath wanted)

theorem careful_sound (d : Folder) (a : Action) (passes : careful d a = true) : Careful d a := by
  cases a with
  | startCapture request opens =>
    intro _ _
    have free : request.wanted ∉ d.files := by simpa [careful] using passes
    exact ⟨0, by decide, free⟩
  | stopCapture => trivial
  | finishCaptureFile k e =>
    simp only [Careful, careful] at passes ⊢
    cases wanted : e.wanted d.capturePath with
    | none =>
      rw [wanted] at passes
      exact fun _ => by simpa using passes
    | some w =>
      rw [wanted] at passes
      obtain ⟨free, alone⟩ : w ∉ d.files ∧ captureMetadataPath w ∉ d.files := by simpa using passes
      refine ⟨0, ⟨by decide, fun m less => absurd less (Nat.not_lt_zero m), ?_⟩, fun _ => alone⟩
      simpa [candidate] using free

/-- A capture of this name and format. -/
def ofName (name : Text) (format : CaptureOutputFormat) : Request :=
  ⟨"d".toList, ⟨none, none, none, none, none, none, none, false⟩, name, false, none, format⟩

/-- Two captures of one name, one after the other, each finished in its way. -/
def twice (first second : Ending) : List Action :=
  [.startCapture (ofName ['x'] .flac) true, .stopCapture, .finishCaptureFile 0 first,
    .startCapture (ofName ['x'] .signed16Bit) true, .stopCapture, .finishCaptureFile 1 second]

theorem twice_preserved : Preserved (machine.trace (.start ["d/y.ddd.s16".toList])
    (twice ⟨true, some 65, true, true⟩ ⟨true, some 80, true, true⟩)).2 :=
  captures_preserved _ (Run.of_trace machine careful _ _ (by decide +kernel) careful_sound)

/-- Two captures of one name that keep it, in the two formats. -/
def unnamed : Folder := (machine.trace (.start [])
  (twice ⟨false, some 65, true, true⟩ ⟨false, some 80, true, true⟩)).2

/-- In the other format the name is free, and the sidecar is written over. -/
theorem sidecar_overwritten : ¬ ∀ (files : List Path) (events : List Unit) (d : Folder),
    Run machine Any (.start files) events d → Preserved d := by
  intro claim
  have preserved : Preserved unnamed := claim [] _ _
    (Run.of_trace machine (fun _ _ => true) _ _ (by decide) (fun _ _ _ => trivial))
  have first : unnamed.captures[0]? = some ⟨[], ["d/x.ddd.flac".toList, "d/x.ddd.yaml".toList],
      some "d/x.ddd.yaml".toList, true⟩ := by decide +kernel
  have second : unnamed.captures[1]? = some ⟨["d/x.ddd.yaml".toList, "d/x.ddd.flac".toList],
      ["d/x.ddd.s16".toList, "d/x.ddd.yaml".toList], some "d/x.ddd.yaml".toList, true⟩ := by
    decide +kernel
  exact absurd (preserved.distinct 0 1 _ _ _ first second rfl rfl) (by decide)

end CaptureFolder
