import DomesdayDuplicator.Firmware.CapturePath
import DomesdayDuplicator.Firmware.ReliableTransfer

/-!
# What stands together while the capture path comes and goes

`Sound` holds in every state of every run: the DMA channel and the rest of the data path are
there exactly while the application is active, and the collect line, the collecting flag and
the input flags agree. That no capture runs during an update holds of the runs in which
capture starts keep away from a verification that may still store its phase (`Clear`).
-/

namespace CaptureLifecycle

open Execution UpdateProtocol Medium UpdateSteps CapturePath
open UpdateAgent hiding Action machine step powerOn

variable {sha256 : List Byte → Digest} {faults : Faults}

structure Sound (f : Firmware) : Prop where
  present : f.agent.applicationActive = true →
    f.hardware.channel = .parked ∨ f.hardware.channel = .running
  absent : f.agent.applicationActive = false → f.hardware.channel = .absent
  driven : f.hardware.collectData = f.agent.dataCollection
  quiet : f.agent.applicationActive = false → f.agent.dataCollection = false
  links : f.agent.applicationActive = false → f.hardware.lpmEnabled = true
  path : f.hardware.gpifRunning = f.agent.applicationActive ∧
    f.hardware.consumer.isSome = f.agent.applicationActive
  inputs : ∀ input, f.inputFlag input = true → f.agent.dataCollection = true

theorem sound_powerOn (i2cComesUp : Bool) (media : Media) :
    Sound (powerOn i2cComesUp media) := by
  constructor <;> simp [powerOn, UpdateAgent.powerOn]

/-! ## Starting and stopping -/

theorem Sound.stop {f : Firmware} (h : Sound f) (active : f.agent.applicationActive = true) :
    Sound (domDupStopApplication f) := by
  have destroyed : f.hardware.channel.destroy = .absent := by
    rcases h.present active with here | here <;> rw [here] <;> rfl
  exact ⟨nofun, fun _ => destroyed, rfl, fun _ => rfl, fun _ => rfl, ⟨rfl, rfl⟩, nofun⟩

theorem Sound.stopIfActive {f : Firmware} (h : Sound f) : Sound (stopIfActive f) ∧
    (CapturePath.stopIfActive f).agent.applicationActive = false := by
  cases active : f.agent.applicationActive with
  | true =>
    rw [CapturePath.stopIfActive, if_pos active]
    exact ⟨h.stop active, rfl⟩
  | false =>
    rw [CapturePath.stopIfActive, if_neg (by simp [active])]
    exact ⟨h, active⟩

theorem start_otherwise {usbSpeed : Speed} (slow : usbSpeed ≠ .superSpeed) (f : Firmware) :
    domDupStartApplication usbSpeed f = f := by
  rw [domDupStartApplication, if_pos slow]

theorem Sound.start {f : Firmware} (h : Sound f) (inactive : f.agent.applicationActive = false) :
    Sound (domDupStartApplication .superSpeed f) ∧
      (domDupStartApplication .superSpeed f).agent.applicationActive = true ∧
      (domDupStartApplication .superSpeed f).hardware.channel = .running := by
  have created : (f.hardware.channel.create).setXfer = .running := by rw [h.absent inactive]; rfl
  exact ⟨⟨fun _ => Or.inr created, nofun, rfl, nofun, nofun, ⟨rfl, rfl⟩, nofun⟩, rfl, created⟩

theorem Sound.startAt {f : Firmware} (h : Sound f) (inactive : f.agent.applicationActive = false)
    (usbSpeed : Speed) : Sound (domDupStartApplication usbSpeed f) := by
  by_cases fast : usbSpeed = .superSpeed
  · rw [fast]
    exact (h.start inactive).1
  · rw [start_otherwise fast]
    exact h

theorem start_links (usbSpeed : Speed) (f : Firmware) :
    (domDupStartApplication usbSpeed f).hardware.lpmEnabled = f.hardware.lpmEnabled := by
  rw [domDupStartApplication]
  split <;> rfl

/-! ## Requests -/

variable (sha256) (faults) in
/-- The update requests leave the capture side alone. -/
theorem serve_capture_side (d : Device) {r : Request} (other : ∀ wValue, r ≠ .capture wValue)
    (stays : ∀ up, r ≠ .reset up) :
    (serve sha256 faults d r).1.dataCollection = d.dataCollection ∧
      (serve sha256 faults d r).1.applicationActive = d.applicationActive ∧
      (serve sha256 faults d r).2 ≠ .captureStopped := by
  cases r with
  | capture wValue => exact absurd rfl (other wValue)
  | reset up => exact absurd rfl (stays up)
  | status wLength =>
    simp only [serve]
    split <;> exact ⟨rfl, rfl, by rintro ⟨⟩⟩
  | begin wIndex wLength payload probe =>
    simp only [serve]
    split
    · exact ⟨rfl, rfl, by rintro ⟨⟩⟩
    · cases payload with
      | none => exact ⟨rfl, rfl, by rintro ⟨⟩⟩
      | some data =>
        simp only [updateAgentBegin]
        repeat' split
        all_goals exact ⟨rfl, rfl, by rintro ⟨⟩⟩
  | data wIndex wValue wLength payload =>
    simp only [serve]
    split
    · exact ⟨rfl, rfl, by rintro ⟨⟩⟩
    · split
      · exact ⟨rfl, rfl, by rintro ⟨⟩⟩
      · cases payload with
        | none => exact ⟨rfl, rfl, by rintro ⟨⟩⟩
        | some data =>
          simp only [updateAgentData]
          repeat' split
          all_goals exact ⟨rfl, rfl, by rintro ⟨⟩⟩
  | finish wIndex =>
    simp only [serve, updateAgentFinish]
    repeat' split
    all_goals exact ⟨rfl, rfl, by rintro ⟨⟩⟩
  | fpgaReconfig triggered =>
    simp only [serve]
    split <;> exact ⟨rfl, rfl, by rintro ⟨⟩⟩

theorem updateRequest_other (s : SetupPacket) (a : Answers) (wValue : Nat) :
    updateRequest s a ≠ .capture wValue := by
  unfold updateRequest
  repeat' split
  all_goals nofun

/-- The agent changes and its capture side does not. -/
theorem Sound.agent {f : Firmware} (h : Sound f) {d : Device}
    (collection : d.dataCollection = f.agent.dataCollection)
    (active : d.applicationActive = f.agent.applicationActive) : Sound { f with agent := d } := by
  refine ⟨?_, ?_, ?_, ?_, ?_, ?_, ?_⟩
  all_goals simp only [collection, active]
  · exact h.present
  · exact h.absent
  · exact h.driven
  · exact h.quiet
  · exact h.links
  · exact h.path
  · exact h.inputs

theorem Sound.collecting {f : Firmware} (h : Sound f) (on : Bool)
    (allowed : on = true → f.agent.applicationActive = true) : Sound (collecting on f) where
  present := h.present
  absent := h.absent
  driven := rfl
  quiet inactive := by
    have inactive : f.agent.applicationActive = false := inactive
    by_contra running
    have on : on = true := by simpa [CapturePath.collecting, domDupClearInputFlags] using running
    rw [allowed on] at inactive
    cases inactive
  links := h.links
  path := h.path
  inputs := nofun

theorem Sound.setLpm {f : Firmware} (h : Sound f) {enabled : Bool}
    (allowed : f.agent.applicationActive = false → enabled = true) : Sound (setLpm enabled f) :=
  ⟨h.present, h.absent, h.driven, h.quiet, allowed, h.path, h.inputs⟩

theorem Sound.setConnected {f : Firmware} (h : Sound f) (connected : Bool) :
    Sound (setConnected connected f) :=
  ⟨h.present, h.absent, h.driven, h.quiet, h.links, h.path, h.inputs⟩

theorem Sound.forceLink {f : Firmware} (h : Sound f) (force : Bool) :
    Sound { f with forceLinkU2 := force } :=
  ⟨h.present, h.absent, h.driven, h.quiet, h.links, h.path, h.inputs⟩

theorem Sound.onChannel {f : Firmware} (h : Sound f) (active : f.agent.applicationActive = true)
    {call : Channel → Channel}
    (keeps : ∀ channel, channel = .parked ∨ channel = .running →
      call channel = .parked ∨ call channel = .running) : Sound (onChannel call f) where
  present _ := keeps _ (h.present active)
  absent inactive := by
    have inactive : f.agent.applicationActive = false := inactive
    rw [active] at inactive
    cases inactive
  driven := h.driven
  quiet := h.quiet
  links := h.links
  path := h.path
  inputs := h.inputs

theorem reset_present {channel : Channel} (h : channel = .parked ∨ channel = .running) :
    channel.reset = .parked ∨ channel.reset = .running := by
  rcases h with rfl | rfl <;> exact Or.inl rfl

theorem Sound.dataCollection {f : Firmware} (h : Sound f)
    (active : f.agent.applicationActive = true) (wValue : BitVec 16) :
    Sound (domDupDataCollection wValue f).1 := by
  rw [domDupDataCollection]
  split
  · exact h
  · split
    · refine (h.collecting true fun _ => active).setLpm fun inactive => ?_
      have inactive : f.agent.applicationActive = false := inactive
      rw [active] at inactive
      cases inactive
    · split
      · exact (h.collecting false (by rintro ⟨⟩)).setLpm fun _ => rfl
      · exact h

theorem Sound.standardRequest {f : Firmware} (h : Sound f) (s : SetupPacket) :
    Sound (domDupStandardRequest s f).1 := by
  rw [domDupStandardRequest]
  split
  · split
    · exact h.forceLink _
    · exact h
  · split
    · split
      · rename_i active
        refine ⟨fun _ => Or.inr ?_, ?_, h.driven, h.quiet, h.links, h.path, h.inputs⟩
        · rcases h.present active.1 with here | here <;>
            simp [CapturePath.onChannel, here, Channel.reset, Channel.setXfer]
        · intro inactive
          have inactive : f.agent.applicationActive = false := inactive
          rw [active.1] at inactive
          cases inactive
      · exact h
    · exact h

theorem Sound.updateRequest {f : Firmware} (h : Sound f) {r : Request}
    (other : ∀ wValue, r ≠ .capture wValue) :
    Sound (domDupHandleUpdateRequest sha256 faults r f).1 := by
  by_cases reset : ∃ up, r = .reset up
  · obtain ⟨up, rfl⟩ := reset
    exact sound_powerOn up f.agent.media
  · have stays : ∀ up, r ≠ .reset up := fun up same => reset ⟨up, same⟩
    have side := serve_capture_side sha256 faults f.agent other stays
    cases r with
    | reset up => exact absurd rfl (stays up)
    | _ => exact h.agent side.1 side.2.1

theorem Sound.setup {f : Firmware} (h : Sound f) (s : SetupPacket) (a : Answers) :
    Sound (domDupUSBSetupCB sha256 faults s a f).1 := by
  rw [domDupUSBSetupCB]
  split
  · split
    · exact h.updateRequest (updateRequest_other s a)
    · split
      · rename_i active
        repeat' split
        · exact h.dataCollection active _
        all_goals exact h
      · exact h
  · split
    · exact h.standardRequest s
    · exact h

/-! ## Events -/

theorem Sound.event {f : Firmware} (h : Sound f) (usbSpeed : Speed) (e : UsbEvent) :
    Sound (domDupUSBEventCB usbSpeed e f) := by
  cases e with
  | connect eventData => exact h.setLpm fun _ => rfl
  | setConf eventData =>
    simp only [domDupUSBEventCB]
    split
    · exact h.stopIfActive.1.startAt h.stopIfActive.2 usbSpeed
    · exact h.stopIfActive.1
  | suspend =>
    have stopped := h.collecting false nofun
    simp only [domDupUSBEventCB]
    split
    · exact stopped.onChannel ‹_› fun _ => reset_present
    · exact stopped
  | resume =>
    simp only [domDupUSBEventCB]
    split
    · exact (h.stop ‹_›).startAt rfl usbSpeed
    · exact h
  | reset => exact (h.forceLink false).stopIfActive.1.setLpm fun _ => rfl
  | disconnect => exact (h.forceLink false).stopIfActive.1
  | vbusRemoved =>
    simp only [domDupUSBEventCB]
    split
    · exact h.stopIfActive.1.setConnected false
    · exact h
  | vbusValid =>
    simp only [domDupUSBEventCB]
    split
    · exact h.setConnected true
    · exact h
  | _ => exact h

theorem Sound.initialise {f : Firmware} (h : Sound f) (noRenum : Bool) (usbSpeed : Speed) :
    Sound (domDupInitialiseApplication noRenum usbSpeed f) := by
  have complete : ∀ {g : Firmware}, Sound g → Sound { g with usbInitComplete := true } :=
    fun g => ⟨g.present, g.absent, g.driven, g.quiet, g.links, g.path, g.inputs⟩
  rw [domDupInitialiseApplication]
  split
  · exact complete (h.setConnected true)
  · exact complete (h.stopIfActive.1.startAt h.stopIfActive.2 usbSpeed)

theorem Sound.interrupt {f : Firmware} (h : Sound f) (gpioTriggerPin : Nat) (gpioValue : Bool) :
    Sound (gpioInterruptCallback gpioTriggerPin gpioValue f) := by
  rw [gpioInterruptCallback]
  split
  · exact h
  · split
    · split
      · rename_i collects
        exact ⟨h.present, h.absent, h.driven, h.quiet, h.links, h.path, fun _ _ => collects⟩
      · exact h
    · rename_i which _ _
      refine ⟨h.present, h.absent, h.driven, h.quiet, h.links, h.path, ?_⟩
      intro input set
      by_cases same : input = which
      · simp [same] at set
      · simp only [Function.update_of_ne same] at set
        exact h.inputs input set

theorem threadStep_active (d : Device) :
    (threadStep sha256 faults d).1.applicationActive = d.applicationActive := by
  unfold threadStep
  cases d.thread <;> simp only <;> repeat' split
  all_goals rfl

theorem Sound.step {f : Firmware} (h : Sound f) (a : Action) :
    Sound (step sha256 faults f a).1 := by
  cases a with
  | setup s a => exact h.setup s a
  | usb usbSpeed e => exact h.event usbSpeed e
  | initialise noRenum usbSpeed => exact h.initialise noRenum usbSpeed
  | interrupt gpioTriggerPin gpioValue => exact h.interrupt gpioTriggerPin gpioValue
  | loop => exact ⟨h.present, h.absent, h.driven, h.quiet, h.links, h.path, h.inputs⟩
  | thread =>
    exact h.agent (threadStep_frame sha256 faults f.agent).collection (threadStep_active f.agent)

/-! ## Link power and transfers -/

/-- The reports after which U1 and U2 are the driver's again. -/
def Restores : Report → Prop
  | .agent .captureStopped => True
  | .usb _ (.setConf _) | .usb _ .resume | .usb _ .reset | .usb _ .disconnect => True
  | _ => False

def Rebuilds : Report → Prop
  | .usb _ (.setConf _) | .usb _ .resume => True
  | _ => False

def Suspends : Report → Prop
  | .usb _ .suspend => True
  | _ => False

/-- An active application has a transfer set. -/
def Transfers (f : Firmware) : Prop :=
  f.agent.applicationActive = true → f.hardware.channel = .running

structure Keeps (f f' : Firmware) (r : Report) : Prop where
  links : r ≠ .agent .captureStarted → f.hardware.lpmEnabled = true → f'.hardware.lpmEnabled = true
  restored : Restores r → f'.hardware.lpmEnabled = true
  transfers : ¬ Suspends r → Transfers f → Transfers f'
  rebuilt : Rebuilds r → Transfers f'

/-- A step that ends with the links the driver's and no transfer missing. -/
theorem Keeps.whole {f f' : Firmware} {r : Report} (links : f'.hardware.lpmEnabled = true)
    (transfers : Transfers f') : Keeps f f' r :=
  ⟨fun _ _ => links, fun _ => links, fun _ _ => transfers, fun _ => transfers⟩

/-- A step that neither restores nor rebuilds. -/
theorem Keeps.same {f f' : Firmware} {r : Report} (restores : ¬ Restores r)
    (links : f'.hardware.lpmEnabled = f.hardware.lpmEnabled)
    (active : f'.agent.applicationActive = f.agent.applicationActive)
    (channel : f'.hardware.channel = f.hardware.channel) : Keeps f f' r where
  links _ enabled := links.trans enabled
  restored restore := absurd restore restores
  transfers _ transfers := by
    rw [Transfers, active, channel]
    exact transfers
  rebuilt rebuild := by
    refine absurd ?_ restores
    cases r with
    | usb usbSpeed e =>
      cases e with
      | setConf | resume => trivial
      | _ => exact rebuild.elim
    | _ => exact rebuild.elim

theorem keeps_stopped {f f' : Firmware} {r : Report}
    (inactive : f'.agent.applicationActive = false) (sound : Sound f') : Keeps f f' r :=
  .whole (sound.links inactive) fun active => by rw [inactive] at active; cases active

theorem keeps_rebuilt {f f' : Firmware} {r : Report}
    (inactive : f'.agent.applicationActive = false) (sound : Sound f') (usbSpeed : Speed) :
    Keeps f (domDupStartApplication usbSpeed f') r := by
  by_cases fast : usbSpeed = .superSpeed
  · rw [fast]
    refine .whole ?_ fun _ => (sound.start inactive).2.2
    rw [start_links]
    exact sound.links inactive
  · rw [start_otherwise fast]
    exact keeps_stopped inactive sound

theorem keeps_event {f : Firmware} (h : Sound f) (usbSpeed : Speed) (e : UsbEvent) :
    Keeps f (domDupUSBEventCB usbSpeed e f) (.usb usbSpeed e) := by
  cases e with
  | connect eventData => exact ⟨fun _ _ => rfl, nofun, fun _ transfers => transfers, nofun⟩
  | setConf eventData =>
    simp only [domDupUSBEventCB]
    split
    · exact keeps_rebuilt h.stopIfActive.2 h.stopIfActive.1 usbSpeed
    · exact keeps_stopped h.stopIfActive.2 h.stopIfActive.1
  | suspend =>
    refine ⟨?_, nofun, fun stays => absurd trivial stays, nofun⟩
    intro _ enabled
    simp only [domDupUSBEventCB]
    split <;> exact enabled
  | resume =>
    simp only [domDupUSBEventCB]
    split
    · exact keeps_rebuilt rfl (h.stop ‹_›) usbSpeed
    · exact keeps_stopped (by simpa using ‹¬ f.agent.applicationActive = true›) h
  | reset =>
    have stopped := (h.forceLink false).stopIfActive
    exact keeps_stopped stopped.2 (stopped.1.setLpm fun _ => rfl)
  | disconnect =>
    have stopped := (h.forceLink false).stopIfActive
    exact keeps_stopped stopped.2 stopped.1
  | vbusRemoved =>
    simp only [domDupUSBEventCB]
    split
    · exact keeps_stopped h.stopIfActive.2 (h.stopIfActive.1.setConnected false)
    · exact .same id rfl rfl rfl
  | vbusValid =>
    simp only [domDupUSBEventCB]
    split <;> exact .same id rfl rfl rfl
  | _ => exact .same id rfl rfl rfl

theorem keeps_dataCollection (wValue : BitVec 16) (f : Firmware) :
    Keeps f (domDupDataCollection wValue f).1 (domDupDataCollection wValue f).2 := by
  rw [domDupDataCollection]
  split
  · exact .same id rfl rfl rfl
  · split
    · exact ⟨fun started => absurd rfl started, by rintro ⟨⟩, fun _ transfers => transfers,
        by rintro ⟨⟩⟩
    · split
      · exact ⟨fun _ _ => rfl, fun _ => rfl, fun _ transfers => transfers, by rintro ⟨⟩⟩
      · exact .same id rfl rfl rfl

theorem keeps_standardRequest {f : Firmware} (h : Sound f) (s : SetupPacket) :
    Keeps f (domDupStandardRequest s f).1 (domDupStandardRequest s f).2 := by
  rw [domDupStandardRequest]
  split
  · split <;> exact .same id rfl rfl rfl
  · split
    · split
      · rename_i active
        refine ⟨fun _ enabled => enabled, nofun, fun _ _ _ => ?_, nofun⟩
        rcases h.present active.1 with here | here <;>
          simp [CapturePath.onChannel, here, Channel.reset, Channel.setXfer]
      · exact .same id rfl rfl rfl
    · exact .same id rfl rfl rfl

theorem keeps_updateRequest (f : Firmware) {r : Request} (other : ∀ wValue, r ≠ .capture wValue) :
    Keeps f (domDupHandleUpdateRequest sha256 faults r f).1
      (domDupHandleUpdateRequest sha256 faults r f).2 := by
  by_cases reset : ∃ up, r = .reset up
  · obtain ⟨up, rfl⟩ := reset
    exact keeps_stopped rfl (sound_powerOn up f.agent.media)
  · have stays : ∀ up, r ≠ .reset up := fun up same => reset ⟨up, same⟩
    have side := serve_capture_side sha256 faults f.agent other stays
    have quiet : ¬ Restores (.agent (serve sha256 faults f.agent r).2) := by
      have never := side.2.2
      generalize (serve sha256 faults f.agent r).2 = event at never
      cases event with
      | captureStopped => exact absurd rfl never
      | _ => exact id
    cases r with
    | reset up => exact absurd rfl (stays up)
    | _ => exact .same quiet rfl side.2.1 rfl

theorem keeps_setup {f : Firmware} (h : Sound f) (s : SetupPacket) (a : Answers) :
    Keeps f (domDupUSBSetupCB sha256 faults s a f).1 (domDupUSBSetupCB sha256 faults s a f).2 := by
  rw [domDupUSBSetupCB]
  split
  · split
    · exact keeps_updateRequest f (updateRequest_other s a)
    · repeat' split
      · exact keeps_dataCollection s.wValue f
      all_goals exact .same id rfl rfl rfl
  · split
    · exact keeps_standardRequest h s
    · exact .same id rfl rfl rfl

theorem keeps {f : Firmware} (h : Sound f) (a : Action) :
    Keeps f (step sha256 faults f a).1 (step sha256 faults f a).2 := by
  cases a with
  | setup s a => exact keeps_setup h s a
  | usb usbSpeed e => exact keeps_event h usbSpeed e
  | initialise noRenum usbSpeed =>
    simp only [CapturePath.step, domDupInitialiseApplication]
    split
    · exact .same id rfl rfl rfl
    · have rebuilt := keeps_rebuilt (f := f) (r := .silent) h.stopIfActive.2 h.stopIfActive.1 usbSpeed
      exact ⟨rebuilt.links, nofun, rebuilt.transfers, nofun⟩
  | interrupt gpioTriggerPin gpioValue =>
    simp only [CapturePath.step, gpioInterruptCallback]
    repeat' split
    all_goals exact .same id rfl rfl rfl
  | loop => exact .same id rfl rfl rfl
  | thread =>
    refine .same ?_ rfl (threadStep_active f.agent) rfl
    simp only [CapturePath.step, threadStep_event]
    split <;> exact id

/-! ## Whole runs -/

section Run

variable {allowed : Firmware → Action → Prop} {i2cComesUp : Bool} {media : Media}
  {es before after : List Report} {r : Report} {f g : Firmware}

theorem sound_along (run : Run (machine sha256 faults) allowed g es f) (h : Sound g) : Sound f :=
  run.invariant h fun _ a h _ => h.step a

/-- What a step of a run from power-on leaves, up to the end of the run. -/
theorem holds_from (Open : Firmware → Prop) (opens closes : Report → Prop)
    (run : Run (machine sha256 faults) allowed (powerOn i2cComesUp media) (before ++ r :: after) f)
    (opened : ∀ g a, Sound g → opens (step sha256 faults g a).2 → Open (step sha256 faults g a).1)
    (stays : ∀ g a, Sound g → Open g → ¬ closes (step sha256 faults g a).2 →
      Open (step sha256 faults g a).1)
    (here : opens r) (quiet : ∀ e ∈ after, ¬ closes e) : Open f := by
  obtain ⟨mid, a, first, ok, report, rest⟩ := run.split
  have sound : Sound mid := sound_along first (sound_powerOn i2cComesUp media)
  let Held := fun g => Sound g ∧ Open g
  have start : Held ((machine sha256 faults).step mid a).1 :=
    ⟨sound.step a, opened mid a sound (report ▸ here)⟩
  have whole : Held f := by
    refine rest.holds_until closes start ?_ quiet
    rintro g a ⟨sound, held⟩ _ still
    exact ⟨sound.step a, stays g a sound held still⟩
  exact whole.2

/-- U1 and U2 stay the driver's until a capture starts. -/
theorem links_restored
    (run : Run (machine sha256 faults) allowed (powerOn i2cComesUp media) (before ++ r :: after) f)
    (restores : Restores r) (none : .agent .captureStarted ∉ after) :
    f.hardware.lpmEnabled = true := by
  refine holds_from (fun f => f.hardware.lpmEnabled = true) Restores
    (· = .agent .captureStarted) run ?_ ?_ restores ?_
  · intro g a sound restores
    exact (keeps sound a).restored restores
  · intro g a sound enabled other
    exact (keeps sound a).links other enabled
  · rintro e member rfl
    exact none member

/-- The transfer stays set until the next suspend. -/
theorem transfers_rebuilt
    (run : Run (machine sha256 faults) allowed (powerOn i2cComesUp media) (before ++ r :: after) f)
    (rebuilds : Rebuilds r) (awake : ∀ e ∈ after, ¬ Suspends e) : Transfers f := by
  refine holds_from Transfers Rebuilds Suspends run ?_ ?_ rebuilds awake
  · intro g a sound rebuilds
    exact (keeps sound a).rebuilt rebuilds
  · intro g a sound transfers stays
    exact (keeps sound a).transfers stays transfers

end Run

end CaptureLifecycle
