import SliverOS.Streams.Transducer
import SliverOS.Streams.Scan
import SliverOS.Bytes.Memory
import SliverOS.Heap.Blocks
import SliverOS.Flash.Nor
import SliverOS.Protocol.Crc16
import SliverOS.Protocol.Wire
import SliverOS.Kernel.Types
import SliverOS.Protocol.Firmware
import SliverOS.Protocol.Browser
import SliverOS.Protocol.Resync
import SliverOS.Protocol.Agreement
import SliverOS.Kernel.Kernel
import SliverOS.Kernel.Arena
import SliverOS.Kernel.ArenaChain
import SliverOS.Kernel.ArenaRefinement
import SliverOS.Kernel.ArenaInvariant
import SliverOS.Protocol.Service
import SliverOS.Protocol.Lifecycle
import SliverOS.Vfs.Block
import SliverOS.Vfs.Superblock
import SliverOS.Vfs.Vfs
import SliverOS.Vfs.Strings
import SliverOS.Vfs.Invariant
import SliverOS.Vfs.Splice
import SliverOS.Vfs.Crash
import SliverOS.Vfs.Recovery
import SliverOS.RoundRobin.Cursor
import SliverOS.Kernel.Scheduler
import SliverOS.Kernel.Fairness
import SliverOS.Kernel.Dispatch
import SliverOS.Kernel.Wraparound
import SliverOS.Kernel.ArenaAccounting
import SliverOS.Vfs.Record
import SliverOS.Vfs.Isolation
import SliverOS.Streams.Stuffing
import SliverOS.Flasher.EspProtocol
import SliverOS.Streams.Actions
import SliverOS.Flasher.Requests
import SliverOS.Flasher.EspLoader
import SliverOS.Flasher.Responses
import SliverOS.Flasher.FlashManager
import SliverOS.Bytes.Layout
import SliverOS.Bytes.Utf8
import SliverOS.Protocol.Telemetry
import SliverOS.Protocol.Unpackers
import SliverOS.Queues.Fifo
import SliverOS.Queues.Ring
import SliverOS.Kernel.FaultManager
import SliverOS.Kernel.EventBus
import SliverOS.Hal.Wifi
import SliverOS.Heap.Linked
import SliverOS.Kernel.MemoryPool
import SliverOS.Kernel.PoolInvariant
import SliverOS.Protocol.AppState
import SliverOS.Vfs.Table
import SliverOS.Flash.Discipline
import SliverOS.Vfs.Discipline
import SliverOS.Vfs.Log
import SliverOS.Apps.MacroParser
import SliverOS.Apps.MacroText
import SliverOS.Apps.MacroLines
import SliverOS.Streams.Lockstep
import SliverOS.Apps.RetroGames
import SliverOS.Apps.Fidelity
import SliverOS.Bytes.Hex
import SliverOS.Flasher.FirmwareManager
import SliverOS.Queues.Gap
import SliverOS.Protocol.Transmit
import SliverOS.Vfs.Mount
import SliverOS.Bytes.Access
import SliverOS.Vfs.RecordBounds
import SliverOS.Bytes.Crc
import SliverOS.Vfs.Detection
import SliverOS.Vfs.Faults
import SliverOS.Vfs.Atomicity
import SliverOS.Vfs.Names
import SliverOS.Vfs.Bounds
import SliverOS.Kernel.Timebase
import SliverOS.Bytes.Burst
import SliverOS.Protocol.Corruption
import SliverOS.Protocol.Accounting
import SliverOS.Kernel.FirstFit
import SliverOS.Kernel.InvalidFrees
import SliverOS.Vfs.Access
import SliverOS.Streams.Generator
import SliverOS.Apps.MacroChunks
import SliverOS.Apps.BleHid
import SliverOS.Apps.MacroDelays
import SliverOS.Streams.Slices
import SliverOS.Flasher.Transfers
import SliverOS.Streams.Run
import SliverOS.Apps.BleReports
import SliverOS.Apps.BleDescriptors
import SliverOS.Apps.LanderFlight
import SliverOS.Kernel.Selection
import SliverOS.Apps.NetworkTerminal
import SliverOS.Apps.NetworkDiagnostics
import SliverOS.Vfs.Reads
import SliverOS.Vfs.Checksum
import SliverOS.Apps.TerminalPolicy
import SliverOS.Hal.Gpio
import SliverOS.Protocol.FaultTelemetry
import SliverOS.Apps.WifiDiagnostics
import SliverOS.Apps.MacroLineNumbers
import SliverOS.Streams.Channel
import SliverOS.Bytes.Printf
import SliverOS.Protocol.Shell
import SliverOS.Protocol.Messages
import SliverOS.Protocol.Device
import SliverOS.Protocol.Client
import SliverOS.Protocol.Link
import SliverOS.Protocol.Broadcast
import SliverOS.Protocol.Terminal
import SliverOS.Apps.AuditLog
import SliverOS.Vfs.Store
import SliverOS.Vfs.Refinement
import SliverOS.Streams.Effects
import SliverOS.Flasher.Installation
import SliverOS.Dicts.Insertion
import SliverOS.Flasher.Packaging
import SliverOS.Apps.Typing
import SliverOS.Apps.MacroSchedule
import SliverOS.Apps.FlightTime
import SliverOS.RoundRobin.Timetable
import SliverOS.Kernel.Timetable
import SliverOS.Queues.Load
import SliverOS.Apps.WifiLosses
