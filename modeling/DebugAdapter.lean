import DebugAdapter.Bytes
import DebugAdapter.Cache
import DebugAdapter.Console
import DebugAdapter.Debuggee.Engine
import DebugAdapter.Debuggee.Error
import DebugAdapter.Debuggee.MemoryRows
import DebugAdapter.Debuggee.Module
import DebugAdapter.Debuggee.Output
import DebugAdapter.Debuggee.State
import DebugAdapter.Decimal.Overflow
import DebugAdapter.Decimal.Shortest
import DebugAdapter.Elf.Format
import DebugAdapter.Elf.Image
import DebugAdapter.Elf.MangledName
import DebugAdapter.Elf.MangledPath
import DebugAdapter.Elf.ObjectFile
import DebugAdapter.Engine.Scripted
import DebugAdapter.Engine.Simulated
import DebugAdapter.Engine.Traced
import DebugAdapter.Json.Basic
import DebugAdapter.Json.Lenient
import DebugAdapter.Json.Parse
import DebugAdapter.Json.Render
import DebugAdapter.Linux.FileTree
import DebugAdapter.Linux.Kernel
import DebugAdapter.Linux.Memory
import DebugAdapter.Linux.MemoryMap
import DebugAdapter.Linux.OsError
import DebugAdapter.Linux.ScriptedKernel
import DebugAdapter.Linux.Signal
import DebugAdapter.Machine.Decode
import DebugAdapter.Machine.Operand
import DebugAdapter.Machine.References
import DebugAdapter.Machine.Register
import DebugAdapter.Machine.Unwind
import DebugAdapter.Main
import DebugAdapter.Program.Arguments
import DebugAdapter.Program.Host
import DebugAdapter.Program.ScriptedHost
import DebugAdapter.Proofs.Operation
import DebugAdapter.Script.Debuggee
import DebugAdapter.Script.Engine
import DebugAdapter.Script.Kernel
import DebugAdapter.Server
import DebugAdapter.Session.Arguments
import DebugAdapter.Session.Basic
import DebugAdapter.Session.Breakpoints
import DebugAdapter.Session.Command
import DebugAdapter.Session.Configuration
import DebugAdapter.Session.Dispatch
import DebugAdapter.Session.Error
import DebugAdapter.Session.Execution
import DebugAdapter.Session.Inspection
import DebugAdapter.Session.Lifecycle
import DebugAdapter.Session.Notifier
import DebugAdapter.Session.Retry
import DebugAdapter.Session.Settings
import DebugAdapter.Session.Views
import DebugAdapter.Text.Invisible
import DebugAdapter.Text.Numeral
import DebugAdapter.Text.Path
import DebugAdapter.Text.Punycode
import DebugAdapter.Text.Quoted
import DebugAdapter.Text.Utf8
import DebugAdapter.Text.Words
import DebugAdapter.Toml.Basic
import DebugAdapter.Toml.Parse
import DebugAdapter.Tracer.Basic
import DebugAdapter.Tracer.Breakpoints
import DebugAdapter.Tracer.Inspection
import DebugAdapter.Tracer.Lifecycle
import DebugAdapter.Tracer.Modules
import DebugAdapter.Tracer.Statuses
import DebugAdapter.Tracer.Stepping
import DebugAdapter.Tracer.Stopping
import DebugAdapter.Wire.Frame
import DebugAdapter.Wire.Notification
import DebugAdapter.Wire.Outbox
import DebugAdapter.Wire.Response
import DebugAdapter.Word
import DebugAdapter.Proofs.AddressSpace
import DebugAdapter.Proofs.BreakpointTable
import DebugAdapter.Proofs.PatchCells
import DebugAdapter.Proofs.PatchTransparency
import DebugAdapter.Proofs.PatchRuns
import DebugAdapter.Proofs.SessionRules
import DebugAdapter.Proofs.Attendance
import DebugAdapter.Proofs.QuietCommands
import DebugAdapter.Proofs.SessionLifecycle
import DebugAdapter.Proofs.SessionRuns
import DebugAdapter.Proofs.CommandNames
import DebugAdapter.Proofs.ReplyShapes
import DebugAdapter.Proofs.Outgoing
import DebugAdapter.Proofs.Journal
import DebugAdapter.Proofs.TargetLives
import DebugAdapter.Proofs.Effects
import DebugAdapter.Proofs.Serving
import DebugAdapter.Proofs.LiveTargets
import DebugAdapter.Proofs.OutsideActive
import DebugAdapter.Proofs.ServerRuns
import DebugAdapter.Proofs.AlikeEngines
import DebugAdapter.Proofs.AlikeSessions
import DebugAdapter.Proofs.TracerRelations
import DebugAdapter.Proofs.ReportRelations
import DebugAdapter.Proofs.TracerRequests
import DebugAdapter.Proofs.BreakpointIds
import DebugAdapter.Proofs.PatchRelations
import DebugAdapter.Proofs.ProcessImages
import DebugAdapter.Proofs.Inquiries
import DebugAdapter.Proofs.TracedEngine
import DebugAdapter.Proofs.BreakpointRequests
import DebugAdapter.Proofs.BreakpointNames
import DebugAdapter.Proofs.ArmedTables
import DebugAdapter.Proofs.ArmedRuns
import DebugAdapter.Proofs.BreakpointAgreement
import DebugAdapter.Proofs.AgreementRuns
import DebugAdapter.Proofs.BinaryFrames
import DebugAdapter.Proofs.LineFrames
import DebugAdapter.Proofs.RenderedText
import DebugAdapter.Proofs.OutboxStream
import DebugAdapter.Proofs.TwinRules
import DebugAdapter.Proofs.TwinCommands
import DebugAdapter.Proofs.DiscreetEngines
import DebugAdapter.Proofs.UnreadOutput
import DebugAdapter.Proofs.BrokenOutput
import DebugAdapter.Proofs.TracerActs
import DebugAdapter.Proofs.HaltedThreads
import DebugAdapter.Proofs.StopReports
import DebugAdapter.Proofs.ProcessStarts
import DebugAdapter.Proofs.AllStop
import DebugAdapter.Proofs.SignalBooks
import DebugAdapter.Proofs.SignalConduct
import DebugAdapter.Proofs.SignalStarts
import DebugAdapter.Proofs.SignalRuns
import DebugAdapter.Proofs.StopSignals
import DebugAdapter.Proofs.InstalledBreakpoints
import DebugAdapter.Proofs.FailedRuns
import DebugAdapter.Proofs.PatchedImages
import DebugAdapter.Proofs.PublicRelations
import DebugAdapter.Proofs.PublishedStates
import DebugAdapter.Proofs.LooseThreads
import DebugAdapter.Proofs.TruthfulTracers
import DebugAdapter.Proofs.LiftedSteps
import DebugAdapter.Proofs.Mishaps
import DebugAdapter.Proofs.Dealings
import DebugAdapter.Proofs.InterruptedLooks
import DebugAdapter.Proofs.PendingInterrupts
import DebugAdapter.Proofs.ModuleSurveys
import DebugAdapter.Proofs.ModuleReplay
import DebugAdapter.Proofs.BoundedSteps
import DebugAdapter.Proofs.OutputBuffers
import DebugAdapter.Proofs.Renditions
import DebugAdapter.Proofs.NotifierThreads
import DebugAdapter.Proofs.OutputPumps
import DebugAdapter.Proofs.Bearings
import DebugAdapter.Proofs.Refocusing
import DebugAdapter.Proofs.PendingBreakpoints
import DebugAdapter.Proofs.FailedCommands
import DebugAdapter.Proofs.UserCodeSearch
import DebugAdapter.Proofs.Focus
import DebugAdapter.Proofs.EntryOutcomes
import DebugAdapter.Proofs.BreakpointOwners
import DebugAdapter.Proofs.FailedPatches
import DebugAdapter.Proofs.CallLogs
import DebugAdapter.Proofs.StopLogs
import DebugAdapter.Proofs.RunningChanges
import DebugAdapter.Proofs.StepLogs
import DebugAdapter.Proofs.ThreadRegisters
import DebugAdapter.Proofs.PassedBreakpoints
import DebugAdapter.Proofs.PlanArrivals
import DebugAdapter.Proofs.PlanOrigins
import DebugAdapter.Proofs.CallChains
import DebugAdapter.Proofs.RecentUse
import DebugAdapter.Proofs.ReferenceSearches
import DebugAdapter.Proofs.MappedMemory
import DebugAdapter.Proofs.KeptImages
import DebugAdapter.Proofs.QuietLooks
import DebugAdapter.Proofs.CallStacks
import DebugAdapter.Proofs.FrameRegisters
import DebugAdapter.Proofs.Numerals
import DebugAdapter.Proofs.SymbolLookup
import DebugAdapter.Proofs.QuotedWords
import DebugAdapter.Proofs.AddressArguments
import DebugAdapter.Proofs.Slides
import DebugAdapter.Proofs.RepeatedLooks
import DebugAdapter.Proofs.MemoryViews
import DebugAdapter.Proofs.SingleSteps
