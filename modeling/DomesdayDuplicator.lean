import DomesdayDuplicator.Analysis.AmplitudeHistory
import DomesdayDuplicator.Capture.CaptureBookkeeping
import DomesdayDuplicator.Capture.CaptureController
import DomesdayDuplicator.Capture.CaptureFiles
import DomesdayDuplicator.Capture.CaptureFolder
import DomesdayDuplicator.Capture.CaptureMetadata
import DomesdayDuplicator.Capture.CaptureNaming
import DomesdayDuplicator.Capture.CapturePipeline
import DomesdayDuplicator.Capture.CaptureReader
import DomesdayDuplicator.Capture.CaptureSession
import DomesdayDuplicator.Capture.CaptureSpan
import DomesdayDuplicator.Capture.CaptureWriters
import DomesdayDuplicator.Capture.ControlServer
import DomesdayDuplicator.Capture.DeviceTelemetry
import DomesdayDuplicator.Capture.DiskBufferRing
import DomesdayDuplicator.Capture.DurationLimit
import DomesdayDuplicator.Capture.GeometryPlan
import DomesdayDuplicator.Capture.HeadlessCapture
import DomesdayDuplicator.Capture.HeadlessExit
import DomesdayDuplicator.Capture.MarkedStream
import DomesdayDuplicator.Capture.NameSafety
import DomesdayDuplicator.Capture.PipelineDrain
import DomesdayDuplicator.Capture.PipelineStop
import DomesdayDuplicator.Capture.PipelineThreads
import DomesdayDuplicator.Capture.RampFile
import DomesdayDuplicator.Capture.RingHandoff
import DomesdayDuplicator.Capture.RingOccupancy
import DomesdayDuplicator.Capture.RingParties
import DomesdayDuplicator.Capture.RollingTransfers
import DomesdayDuplicator.Capture.SampleFormat
import DomesdayDuplicator.Capture.SampleMetrics
import DomesdayDuplicator.Capture.SequenceScan
import DomesdayDuplicator.Capture.SequenceValidator
import DomesdayDuplicator.Capture.SidecarSignal
import DomesdayDuplicator.Capture.SinkChange
import DomesdayDuplicator.Capture.SnapshotPublisher
import DomesdayDuplicator.Capture.SpanAccount
import DomesdayDuplicator.Capture.StatsPublisher
import DomesdayDuplicator.Capture.StopRequests
import DomesdayDuplicator.Capture.StripAndTally
import DomesdayDuplicator.Capture.TestDataAnalysis
import DomesdayDuplicator.Capture.TestPattern
import DomesdayDuplicator.Capture.TransferLayout
import DomesdayDuplicator.Capture.UsbSource
import DomesdayDuplicator.Capture.UsbStream
import DomesdayDuplicator.Capture.YamlContents
import DomesdayDuplicator.Capture.YamlLines
import DomesdayDuplicator.Capture.YamlReader
import DomesdayDuplicator.Capture.YamlRoundTrip
import DomesdayDuplicator.Capture.YamlSections
import DomesdayDuplicator.Capture.YamlWriter
import DomesdayDuplicator.Firmware.BootDownload
import DomesdayDuplicator.Firmware.BootFormat
import DomesdayDuplicator.Firmware.BootImageBuilder
import DomesdayDuplicator.Firmware.BootRoundTrip
import DomesdayDuplicator.Firmware.CaptureExclusion
import DomesdayDuplicator.Firmware.CaptureLifecycle
import DomesdayDuplicator.Firmware.CapturePath
import DomesdayDuplicator.Firmware.CompletedBoot
import DomesdayDuplicator.Firmware.DmaBuffers
import DomesdayDuplicator.Firmware.DmaHeap
import DomesdayDuplicator.Firmware.DownloadAgreement
import DomesdayDuplicator.Firmware.EepromCommit
import DomesdayDuplicator.Firmware.EepromCoverage
import DomesdayDuplicator.Firmware.EepromProgrammer
import DomesdayDuplicator.Firmware.EepromWrite
import DomesdayDuplicator.Firmware.EpcsWrite
import DomesdayDuplicator.Firmware.FpgaRegisters
import DomesdayDuplicator.Firmware.HostTransfer
import DomesdayDuplicator.Firmware.InterruptedFlash
import DomesdayDuplicator.Firmware.Medium
import DomesdayDuplicator.Firmware.ProgrammerDownload
import DomesdayDuplicator.Firmware.RegisterLink
import DomesdayDuplicator.Firmware.RegisterRequests
import DomesdayDuplicator.Firmware.ReliableTransfer
import DomesdayDuplicator.Firmware.SessionRecovery
import DomesdayDuplicator.Firmware.Sha256
import DomesdayDuplicator.Firmware.Sha256Stream
import DomesdayDuplicator.Firmware.StreamedTransfer
import DomesdayDuplicator.Firmware.TelemetryReading
import DomesdayDuplicator.Firmware.TransferRun
import DomesdayDuplicator.Firmware.UpdateAgent
import DomesdayDuplicator.Firmware.UpdateProtocol
import DomesdayDuplicator.Firmware.UpdateSteps
import DomesdayDuplicator.Firmware.Verification
import DomesdayDuplicator.Firmware.VerifyGuard
import DomesdayDuplicator.Foundations.AddressSpace
import DomesdayDuplicator.Foundations.Attempts
import DomesdayDuplicator.Foundations.BlockStream
import DomesdayDuplicator.Foundations.BoundedQueue
import DomesdayDuplicator.Foundations.ByteFields
import DomesdayDuplicator.Foundations.ByteLanes
import DomesdayDuplicator.Foundations.CallingProgram
import DomesdayDuplicator.Foundations.ChunkedReader
import DomesdayDuplicator.Foundations.ClockedCircuit
import DomesdayDuplicator.Foundations.Dialogue
import DomesdayDuplicator.Foundations.EndlessRun
import DomesdayDuplicator.Foundations.EventLog
import DomesdayDuplicator.Foundations.Execution
import DomesdayDuplicator.Foundations.FixedPointFilter
import DomesdayDuplicator.Foundations.FuelLoop
import DomesdayDuplicator.Foundations.InputFilter
import DomesdayDuplicator.Foundations.Intervals
import DomesdayDuplicator.Foundations.Laps
import DomesdayDuplicator.Foundations.MarkedBlocks
import DomesdayDuplicator.Foundations.PagedMemory
import DomesdayDuplicator.Foundations.ReflectedCrc
import DomesdayDuplicator.Foundations.SecureHash
import DomesdayDuplicator.Foundations.SerialBits
import DomesdayDuplicator.Foundations.TapController
import DomesdayDuplicator.Foundations.Tiling
import DomesdayDuplicator.Foundations.Validation
import DomesdayDuplicator.Gateware.ArmingRun
import DomesdayDuplicator.Gateware.BootBlock
import DomesdayDuplicator.Gateware.BootDecision
import DomesdayDuplicator.Gateware.BootLoader
import DomesdayDuplicator.Gateware.BootReading
import DomesdayDuplicator.Gateware.BootTurn
import DomesdayDuplicator.Gateware.BridgeLock
import DomesdayDuplicator.Gateware.Buffer
import DomesdayDuplicator.Gateware.BufferMonitor
import DomesdayDuplicator.Gateware.Crc32
import DomesdayDuplicator.Gateware.DataGenerator
import DomesdayDuplicator.Gateware.DecimatedStream
import DomesdayDuplicator.Gateware.FactoryImage
import DomesdayDuplicator.Gateware.Fifo
import DomesdayDuplicator.Gateware.FlashBridge
import DomesdayDuplicator.Gateware.HalfBandDecimator
import DomesdayDuplicator.Gateware.HalfBandFilter
import DomesdayDuplicator.Gateware.PacketPath
import DomesdayDuplicator.Gateware.RegisterBank
import DomesdayDuplicator.Gateware.RemoteArming
import DomesdayDuplicator.Gateware.RemoteUpdate
import DomesdayDuplicator.Gateware.SerialFlash
import DomesdayDuplicator.Gateware.SpiRegisters
import DomesdayDuplicator.Gateware.SpiTransfer
import DomesdayDuplicator.Gateware.SpiWaveform
import DomesdayDuplicator.Jtag.SvfDecoding
import DomesdayDuplicator.Jtag.SvfFile
import DomesdayDuplicator.Jtag.SvfGaps
import DomesdayDuplicator.Jtag.SvfPlayer
import DomesdayDuplicator.Jtag.SvfReplay
import DomesdayDuplicator.Jtag.SvfRun
import DomesdayDuplicator.Jtag.SvfScans
import DomesdayDuplicator.Jtag.SvfTracking
import DomesdayDuplicator.Jtag.UsbBlasterCable
import DomesdayDuplicator.Jtag.UsbBlasterStream
import DomesdayDuplicator.Player.AddressRoundTrip
import DomesdayDuplicator.Player.AutoCaptureController
import DomesdayDuplicator.Player.AutoCapturePlan
import DomesdayDuplicator.Player.AutoCaptureSequence
import DomesdayDuplicator.Player.CaptureRun
import DomesdayDuplicator.Player.CaptureSafety
import DomesdayDuplicator.Player.CaptureTeardown
import DomesdayDuplicator.Player.CaptureTermination
import DomesdayDuplicator.Player.DiscExaminer
import DomesdayDuplicator.Player.ExaminerEvidence
import DomesdayDuplicator.Player.ExaminerRestart
import DomesdayDuplicator.Player.ExaminerRun
import DomesdayDuplicator.Player.PlayerDefinition
import DomesdayDuplicator.Player.PlayerSession
import DomesdayDuplicator.Player.ReplyMatching
import DomesdayDuplicator.Player.ResponseParser
import DomesdayDuplicator.Player.StopPermission
import DomesdayDuplicator.Update.ArchiveWalk
import DomesdayDuplicator.Update.BringUpOrchestrator
import DomesdayDuplicator.Update.BringUpOrder
import DomesdayDuplicator.Update.DecimalText
import DomesdayDuplicator.Update.FirmwareVersion
import DomesdayDuplicator.Update.JsonAccepts
import DomesdayDuplicator.Update.JsonGrammar
import DomesdayDuplicator.Update.JsonParser
import DomesdayDuplicator.Update.JsonReads
import DomesdayDuplicator.Update.JsonRoundTrip
import DomesdayDuplicator.Update.ManifestReader
import DomesdayDuplicator.Update.ManifestRoundTrip
import DomesdayDuplicator.Update.ManifestSchema
import DomesdayDuplicator.Update.Minisign
import DomesdayDuplicator.Update.OrchestratorCalls
import DomesdayDuplicator.Update.SignatureForm
import DomesdayDuplicator.Update.UpdateBundle
import DomesdayDuplicator.Update.UpdateGate
import DomesdayDuplicator.Update.UpdateManifest
import DomesdayDuplicator.Update.UpdateOrchestrator
import DomesdayDuplicator.Update.UpdateSuccess
import DomesdayDuplicator.Update.UstarArchive
