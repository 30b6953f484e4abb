import DomesdayDuplicator.Capture.CaptureNaming
import DomesdayDuplicator.Capture.YamlSections

/-!
# The sidecar of a capture

`ddd-gui/src/capture/capture_metadata.cpp`: the calls of the writer, mapping by mapping. Whatever
a capture's metadata is, its document reads back as what was written; other documents do so where
no comment has a second line and no mapping has comments only.
-/

namespace Sidecar

open CaptureNaming (AudioTypeChoice DiscTypeChoice VideoStandardChoice)
open Manifest ManifestReader Yaml
open Yaml.Items

/-! ## What is known about a capture -/

structure ScannedFact where
  value : Text
  source : Text

def ScannedFact.known (fact : ScannedFact) : Bool := !fact.value.isEmpty

def discTypeChoiceName : DiscTypeChoice → Text
  | .cav => text "CAV"
  | .clv => text "CLV"
  | .unset => []

def videoStandardChoiceName : VideoStandardChoice → Text
  | .ntsc => text "NTSC"
  | .pal => text "PAL"
  | .unset => []

def audioTypeChoiceName : AudioTypeChoice → Text
  | .default => text "Default"
  | .analogue => text "Analogue"
  | .ac3 => text "AC3"
  | .dts => text "DTS"
  | .unset => []

structure CaptureNamingFields where
  titleUsed : Bool
  title : Text
  discTypeUsed : Bool
  discType : DiscTypeChoice
  videoStandardUsed : Bool
  videoStandard : VideoStandardChoice
  audioUsed : Bool
  audio : AudioTypeChoice
  sideUsed : Bool
  side : Int
  notesUsed : Bool
  notes : Text
  mintMarksUsed : Bool
  mintMarks : Text
  metadataNotes : Text

structure DeviceBuild where
  firmwareVersion : Text
  gatewareVersion : Text
  gatewareRegisterMap : Nat

structure PlayerIdentity where
  modelName : Text
  modelIdCode : Text
  modelCode : Text
  firmwareVersion : Text
  port : Text
  baudRate : Nat
  recognisedModel : Bool

def PlayerIdentity.empty (player : PlayerIdentity) : Bool :=
  player.modelName.isEmpty && player.modelIdCode.isEmpty && player.modelCode.isEmpty &&
    player.firmwareVersion.isEmpty && player.port.isEmpty

structure DiscScan where
  examined : Bool
  discPresent : ScannedFact
  tray : ScannedFact
  discType : ScannedFact
  addressing : ScannedFact
  discSize : ScannedFact
  discSide : ScannedFact
  videoStandard : ScannedFact
  programmeStart : ScannedFact
  programmeEnd : ScannedFact
  programmeDuration : ScannedFact
  leadInReachable : ScannedFact
  chapters : ScannedFact
  standardUserCodeOutcome : Text
  standardUserCode : Text
  pioneerUserCodeOutcome : Text
  pioneerUserCode : Text
  discStatusReply : Text

structure CaptureOutcome where
  completed : Bool
  detail : Text
  durationSeconds : Formatted
  samples : Nat
  bytes : Nat
  deviceOverflowEvents : Nat
  deviceDroppedWords : Nat
  sequenceCheck : Text
  testPatternChecked : Bool
  testPatternPassed : Bool

structure SignalSummary where
  known : Bool
  minimumValue : Nat
  maximumValue : Nat
  rms : Formatted
  clippedLowSamples : Nat
  clippedHighSamples : Nat

structure CaptureMetadata where
  captureFileName : Text
  applicationVersion : Text
  format : Text
  testMode : Bool
  decimationFactor : Int
  sampleRateHz : Nat
  frontEndGain : Text
  started : Int
  finished : Int
  naming : CaptureNamingFields
  outcome : CaptureOutcome
  signal : SignalSummary
  device : DeviceBuild
  player : PlayerIdentity
  disc : DiscScan

/-! ## Timestamps -/

structure Tm where
  year : Int
  mon : Int
  mday : Int
  hour : Int
  min : Int
  sec : Int
  gmtoff : Int

def two (value : Int) : Text :=
  let digits := decimalText value
  if digits.length < 2 then 0x30 :: digits else digits

/-- `localtime` is what `localtime_r` makes of a time, if it can. -/
def formatTimestamp (localtime : Int → Option Tm) (when : Int) : Text :=
  if when = 0 then []
  else
    match localtime when with
    | none => []
    | some parts =>
      let absolute := if parts.gmtoff < 0 then -parts.gmtoff else parts.gmtoff
      decimalText (parts.year + 1900) ++ text "-" ++ two (parts.mon + 1) ++ text "-" ++
        two parts.mday ++ text "T" ++ two parts.hour ++ text ":" ++ two parts.min ++ text ":" ++
        two parts.sec ++ (if parts.gmtoff < 0 then text "-" else text "+") ++
        two (absolute / 3600) ++ text ":" ++ two (absolute % 3600 / 60)

/-! ## The document -/

def comment (t : String) : Items := one (.comment (text t))

def blankLine : Items := one .blankLine

def string (key : String) (value : Text) : Items := one (.string (text key) value)

def stringIfPresent (key : String) (value : Text) : Items := one (.stringIfPresent (text key) value)

def integer (key : String) (value : Int) : Items := one (.integer (text key) value)

def unsigned (key : String) (value : Nat) : Items := one (.unsigned (text key) value)

def number (key : String) (value : Formatted) : Items := one (.number (text key) value)

def boolean (key : String) (value : Bool) : Items := one (.boolean (text key) value)

/-- A mapping from its beginning to its end. -/
def mapping (key : String) (inner : List Items) : Items := (parts inner).under (text key)

def writeFact (key : String) (fact : ScannedFact) : Items :=
  (mapping key [string "value" fact.value, stringIfPresent "source" fact.source]).given fact.known

def writeNaming (naming : CaptureNamingFields) : Items :=
  mapping "naming" [
    (stringIfPresent "title" naming.title).given naming.titleUsed,
    (stringIfPresent "disc_type" (discTypeChoiceName naming.discType)).given naming.discTypeUsed,
    (stringIfPresent "video_standard" (videoStandardChoiceName naming.videoStandard)).given
      naming.videoStandardUsed,
    (stringIfPresent "audio" (audioTypeChoiceName naming.audio)).given naming.audioUsed,
    (integer "side" naming.side).given naming.sideUsed,
    (stringIfPresent "notes" naming.notes).given naming.notesUsed,
    (stringIfPresent "mint_marks" naming.mintMarks).given naming.mintMarksUsed,
    stringIfPresent "metadata_notes" naming.metadataNotes]

def writeDevice (device : DeviceBuild) : Items :=
  mapping "device" [
    stringIfPresent "firmware_version" device.firmwareVersion,
    stringIfPresent "gateware_version" device.gatewareVersion,
    (unsigned "gateware_register_map" device.gatewareRegisterMap).given
      (device.gatewareRegisterMap ≠ 0)]

def writePlayer (player : PlayerIdentity) : Items :=
  mapping "player" [
    stringIfPresent "model_name" player.modelName,
    stringIfPresent "model_id_code" player.modelIdCode,
    stringIfPresent "model_code" player.modelCode,
    stringIfPresent "firmware_version" player.firmwareVersion,
    stringIfPresent "port" player.port,
    (unsigned "baud_rate" player.baudRate).given (player.baudRate ≠ 0),
    (boolean "recognised_model" player.recognisedModel).given (!player.empty)]

def writeUserCode (key : String) (outcome code : Text) : Items :=
  (mapping key [string "outcome" outcome, stringIfPresent "text" code]).given (outcome ≠ [])

def writeDisc (disc : DiscScan) : Items :=
  if !disc.examined then mapping "disc" []
  else
    mapping "disc" [
      boolean "examined" true,
      writeFact "disc_present" disc.discPresent,
      writeFact "tray" disc.tray,
      writeFact "disc_type" disc.discType,
      writeFact "addressing" disc.addressing,
      writeFact "disc_size" disc.discSize,
      writeFact "disc_side" disc.discSide,
      writeFact "video_standard" disc.videoStandard,
      writeFact "programme_start" disc.programmeStart,
      writeFact "programme_end" disc.programmeEnd,
      writeFact "programme_duration" disc.programmeDuration,
      writeFact "lead_in_reachable" disc.leadInReachable,
      writeFact "chapters" disc.chapters,
      stringIfPresent "disc_status_reply" disc.discStatusReply,
      writeUserCode "standard_user_code" disc.standardUserCodeOutcome disc.standardUserCode,
      writeUserCode "pioneer_user_code" disc.pioneerUserCodeOutcome disc.pioneerUserCode]

section Document

variable (localtime : Int → Option Tm) (metadata : CaptureMetadata)

def writeCapture : Items :=
  let outcome := metadata.outcome
  mapping "capture" [
    stringIfPresent "file" metadata.captureFileName,
    stringIfPresent "format" metadata.format,
    boolean "test_mode" metadata.testMode,
    unsigned "sample_rate_hz" metadata.sampleRateHz,
    integer "decimation_factor" metadata.decimationFactor,
    stringIfPresent "front_end_gain" metadata.frontEndGain,
    stringIfPresent "started" (formatTimestamp localtime metadata.started),
    stringIfPresent "finished" (formatTimestamp localtime metadata.finished),
    number "duration_seconds" outcome.durationSeconds,
    unsigned "samples" outcome.samples,
    unsigned "bytes" outcome.bytes,
    boolean "completed" outcome.completed,
    stringIfPresent "detail" outcome.detail,
    stringIfPresent "sequence_check" outcome.sequenceCheck,
    unsigned "device_overflow_events" outcome.deviceOverflowEvents,
    unsigned "device_dropped_words" outcome.deviceDroppedWords,
    (boolean "test_pattern_passed" outcome.testPatternPassed).given outcome.testPatternChecked]

def writeSignal (signal : SignalSummary) : Items :=
  mapping "signal" [
    unsigned "minimum_value" signal.minimumValue,
    unsigned "maximum_value" signal.maximumValue,
    number "rms" signal.rms,
    unsigned "clipped_low_samples" signal.clippedLowSamples,
    unsigned "clipped_high_samples" signal.clippedHighSamples]

def captureMetadata : Items :=
  parts [
    comment "Domesday Duplicator capture metadata.",
    comment "",
    comment "This file describes the capture of the same name beside it.",
    comment "A field that was never established is absent rather than",
    comment "blank, so everything written here was actually known.",
    blankLine,
    integer "schema_version" 1,
    string "application_version" metadata.applicationVersion,
    blankLine,
    writeCapture localtime metadata,
    blankLine,
    (parts [
      comment "Measured over this file's own samples and no others.",
      writeSignal metadata.signal,
      blankLine]).given metadata.signal.known,
    writeNaming metadata.naming,
    blankLine,
    writeDevice metadata.device,
    blankLine,
    writePlayer metadata.player,
    blankLine,
    writeDisc metadata.disc]

def buildCaptureMetadataYaml : Text := document (captureMetadata localtime metadata).calls

end Document

/-! ## What is kept in every document -/

theorem string_plain (key : String) (value : Text) : Plain (string key value) [text key] :=
  Plain.scalar rfl

theorem stringIfPresent_plain (key : String) (value : Text) :
    Plain (stringIfPresent key value) [text key] :=
  Plain.stringIfPresent (text key) value

theorem integer_plain (key : String) (value : Int) : Plain (integer key value) [text key] :=
  Plain.scalar rfl

theorem unsigned_plain (key : String) (value : Nat) : Plain (unsigned key value) [text key] :=
  Plain.scalar rfl

theorem number_plain (key : String) (value : Formatted) : Plain (number key value) [text key] :=
  Plain.scalar rfl

theorem boolean_plain (key : String) (value : Bool) : Plain (boolean key value) [text key] :=
  Plain.scalar rfl

theorem mapping_plain {inner : List Items} {names : List Text} (plain : Plain (parts inner) names)
    (nodup : names.Nodup) (key : String) : Plain (mapping key inner) [text key] :=
  plain.under nodup (text key)

theorem writeFact_plain (key : String) (fact : ScannedFact) :
    Plain (writeFact key fact) [text key] := by
  refine (@mapping_plain _ (["value", "source"].map text) ?_ ?_ key).given _
  · exact (string_plain _ _).append <| (stringIfPresent_plain _ _).append Plain.done
  · decide

theorem writeNaming_plain (naming : CaptureNamingFields) :
    Plain (writeNaming naming) [text "naming"] := by
  refine @mapping_plain _
      (["title", "disc_type", "video_standard", "audio", "side", "notes", "mint_marks",
        "metadata_notes"].map text)
    ?_ ?_ "naming"
  · exact ((stringIfPresent_plain _ _).given _).append <|
      ((stringIfPresent_plain _ _).given _).append <|
      ((stringIfPresent_plain _ _).given _).append <|
      ((stringIfPresent_plain _ _).given _).append <|
      ((integer_plain _ _).given _).append <|
      ((stringIfPresent_plain _ _).given _).append <|
      ((stringIfPresent_plain _ _).given _).append <|
      (stringIfPresent_plain _ _).append Plain.done
  · decide

theorem writeDevice_plain (device : DeviceBuild) : Plain (writeDevice device) [text "device"] := by
  refine @mapping_plain _
      (["firmware_version", "gateware_version", "gateware_register_map"].map text)
    ?_ ?_ "device"
  · exact (stringIfPresent_plain _ _).append <| (stringIfPresent_plain _ _).append <|
      ((unsigned_plain _ _).given _).append Plain.done
  · decide

theorem writePlayer_plain (player : PlayerIdentity) :
    Plain (writePlayer player) [text "player"] := by
  refine @mapping_plain _
      (["model_name", "model_id_code", "model_code", "firmware_version", "port", "baud_rate",
        "recognised_model"].map text)
    ?_ ?_ "player"
  · exact (stringIfPresent_plain _ _).append <| (stringIfPresent_plain _ _).append <|
      (stringIfPresent_plain _ _).append <| (stringIfPresent_plain _ _).append <|
      (stringIfPresent_plain _ _).append <| ((unsigned_plain _ _).given _).append <|
      ((boolean_plain _ _).given _).append Plain.done
  · decide

theorem writeUserCode_plain (key : String) (outcome code : Text) :
    Plain (writeUserCode key outcome code) [text key] := by
  refine (@mapping_plain _ (["outcome", "text"].map text) ?_ ?_ key).given _
  · exact (string_plain _ _).append <| (stringIfPresent_plain _ _).append Plain.done
  · decide

theorem writeDisc_plain (disc : DiscScan) : Plain (writeDisc disc) [text "disc"] := by
  unfold writeDisc
  split
  · exact @mapping_plain [] [] Plain.done List.nodup_nil "disc"
  · refine @mapping_plain _
        (["examined", "disc_present", "tray", "disc_type", "addressing", "disc_size", "disc_side",
          "video_standard", "programme_start", "programme_end", "programme_duration",
          "lead_in_reachable", "chapters", "disc_status_reply", "standard_user_code",
          "pioneer_user_code"].map text)
      ?_ ?_ "disc"
    · exact (boolean_plain _ _).append <| (writeFact_plain _ _).append <|
        (writeFact_plain _ _).append <| (writeFact_plain _ _).append <|
        (writeFact_plain _ _).append <| (writeFact_plain _ _).append <|
        (writeFact_plain _ _).append <| (writeFact_plain _ _).append <|
        (writeFact_plain _ _).append <| (writeFact_plain _ _).append <|
        (writeFact_plain _ _).append <| (writeFact_plain _ _).append <|
        (writeFact_plain _ _).append <| (stringIfPresent_plain _ _).append <|
        (writeUserCode_plain _ _ _).append <| (writeUserCode_plain _ _ _).append Plain.done
    · decide

theorem writeCapture_plain (localtime : Int → Option Tm) (metadata : CaptureMetadata) :
    Plain (writeCapture localtime metadata) [text "capture"] := by
  refine @mapping_plain _
      (["file", "format", "test_mode", "sample_rate_hz", "decimation_factor", "front_end_gain",
        "started", "finished", "duration_seconds", "samples", "bytes", "completed", "detail",
        "sequence_check", "device_overflow_events", "device_dropped_words",
        "test_pattern_passed"].map text)
    ?_ ?_ "capture"
  · exact (stringIfPresent_plain _ _).append <| (stringIfPresent_plain _ _).append <|
      (boolean_plain _ _).append <| (unsigned_plain _ _).append <|
      (integer_plain _ _).append <| (stringIfPresent_plain _ _).append <|
      (stringIfPresent_plain _ _).append <| (stringIfPresent_plain _ _).append <|
      (number_plain _ _).append <| (unsigned_plain _ _).append <|
      (unsigned_plain _ _).append <| (boolean_plain _ _).append <|
      (stringIfPresent_plain _ _).append <| (stringIfPresent_plain _ _).append <|
      (unsigned_plain _ _).append <| (unsigned_plain _ _).append <|
      ((boolean_plain _ _).given _).append Plain.done
  · decide

theorem writeSignal_plain (signal : SignalSummary) :
    Plain (writeSignal signal) [text "signal"] := by
  refine @mapping_plain _
      (["minimum_value", "maximum_value", "rms", "clipped_low_samples",
        "clipped_high_samples"].map text)
    ?_ ?_ "signal"
  · exact (unsigned_plain _ _).append <| (unsigned_plain _ _).append <|
      (number_plain _ _).append <| (unsigned_plain _ _).append <|
      (unsigned_plain _ _).append Plain.done
  · decide

/-- The sections of a sidecar, in their order. -/
def sections : List Text :=
  ["schema_version", "application_version", "capture", "signal", "naming", "device", "player",
    "disc"].map text

theorem captureMetadata_faithful (localtime : Int → Option Tm) (metadata : CaptureMetadata) :
    Faithful (captureMetadata localtime metadata) sections := by
  have blank : Faithful blankLine [] := Plain.blank.toFaithful
  have signal : Faithful (parts [comment "Measured over this file's own samples and no others.",
      writeSignal metadata.signal, blankLine]) [text "signal"] :=
    (Faithful.comment rfl).append <| (writeSignal_plain _).toFaithful.append <|
      blank.append Faithful.done
  exact (Faithful.comment rfl).append <| (Faithful.comment rfl).append <|
    (Faithful.comment rfl).append <| (Faithful.comment rfl).append <|
    (Faithful.comment rfl).append <| blank.append <|
    (integer_plain "schema_version" 1).toFaithful.append <|
    (string_plain _ _).toFaithful.append <| blank.append <|
    (writeCapture_plain _ _).toFaithful.append <| blank.append <|
    (signal.given _).append <|
    (writeNaming_plain _).toFaithful.append <| blank.append <|
    (writeDevice_plain _).toFaithful.append <| blank.append <|
    (writePlayer_plain _).toFaithful.append <| blank.append <|
    (writeDisc_plain _).toFaithful.append Faithful.done

/-- A sidecar reads back as what was written in it. -/
theorem read_sidecar (localtime : Int → Option Tm) (metadata : CaptureMetadata) :
    read (buildCaptureMetadataYaml localtime metadata) =
      some (members (captureMetadata localtime metadata)) := by
  have faithful := captureMetadata_faithful localtime metadata
  have distinct := faithful.distinct (by decide)
  exact (read_document distinct).mpr ⟨faithful.quiet, faithful.filled⟩

/-! ## Other documents -/

/-- Balanced calls with distinct keys read back as their tree exactly where no comment has another
line and no mapping has comments only, and what is written for a capture always does. -/
theorem written_reads_back {calls : List Call} (even : balanced 0 calls = true) :
    (∃ items : Items, calls = items.calls) ∧
      (∀ items : Items, calls = items.calls → Distinct items →
        (read (document calls) = some (members items) ↔ Quiet items ∧ Filled items)) ∧
      ∀ (localtime : Int → Option Tm) (metadata : CaptureMetadata),
        read (buildCaptureMetadataYaml localtime metadata) =
          some (members (captureMetadata localtime metadata)) := by
  refine ⟨(balanced_iff calls).mp even, ?_, read_sidecar⟩
  rintro items rfl distinct
  exact read_document distinct

/-- A mapping nothing was put in. -/
def emptyDisc : Items := mapping "disc" []

theorem emptyDisc_reads_back :
    read (document emptyDisc.calls) = some [(text "disc", .mapping [])] := by
  have plain : Plain emptyDisc [text "disc"] :=
    @mapping_plain [] [] Plain.done List.nodup_nil "disc"
  have distinct := plain.distinct (List.nodup_singleton _)
  have even : balanced 0 emptyDisc.calls = true := rfl
  exact ((written_reads_back even).2.1 emptyDisc rfl distinct).mpr ⟨plain.quiet, plain.filled⟩

/-- A mapping that only has a comment. -/
def commentedDisc : Items := mapping "disc" [comment "Not examined."]

/-- A comment with a line break in its text, and a member behind it. -/
def brokenComment : Items := comment "Notes\n\"side\": 2"

theorem comments_change_the_tree :
    (balanced 0 commentedDisc.calls = true ∧ Distinct commentedDisc ∧
      members commentedDisc = [(text "disc", .mapping [])] ∧
      read (document commentedDisc.calls) = some [(text "disc", .null)] ∧
      read (document commentedDisc.calls) ≠ some (members commentedDisc)) ∧
    (balanced 0 brokenComment.calls = true ∧ Distinct brokenComment ∧
      members brokenComment = [] ∧
      read (document brokenComment.calls) = some [(text "side", .integer 2)] ∧
      read (document brokenComment.calls) ≠ some (members brokenComment)) := by
  have bare : read (document commentedDisc.calls) = some [(text "disc", .null)] := rfl
  have loud : read (document brokenComment.calls) = some [(text "side", .integer 2)] := rfl
  refine ⟨⟨rfl, ⟨by decide, List.nodup_nil, trivial, trivial⟩, rfl, bare, ?_⟩,
    ⟨rfl, ⟨List.nodup_nil, trivial⟩, rfl, loud, ?_⟩⟩
  · rw [bare]
    intro same
    cases same
  · rw [loud]
    intro same
    cases same

end Sidecar
