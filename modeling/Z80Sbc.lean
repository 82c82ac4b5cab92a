import Z80Sbc.Flash.Backend
import Z80Sbc.Flash.JournalSafety
import Z80Sbc.Flash.CacheCoherence
import Z80Sbc.Disk.Device
import Z80Sbc.Disk.Linearizable
import Z80Sbc.Disk.Wedge
import Z80Sbc.Env.Store
import Z80Sbc.Env.SnapshotSafety
import Z80Sbc.Env.CommandLine
import Z80Sbc.Env.Driver
import Z80Sbc.Env.TableDurability
import Z80Sbc.Z80.Cpu
import Z80Sbc.Bank.Transfer
import Z80Sbc.Bank.TransferSpec
import Z80Sbc.Io.ExactReply
import Z80Sbc.Data.RingBuffer
import Z80Sbc.Http.Stream
import Z80Sbc.Http.Mailbox
import Z80Sbc.Http.Completion
import Z80Sbc.Http.Ownership
import Z80Sbc.Supervisor.Control
import Z80Sbc.Supervisor.Reboot
import Z80Sbc.Http.Delivery
import Z80Sbc.Concurrent.SlidingWindow
import Z80Sbc.Terminal.Browser
import Z80Sbc.Terminal.ExactlyOnce
import Z80Sbc.Supervisor.TwoCores
import Z80Sbc.Supervisor.OrderlyStop
import Z80Sbc.Bank.Loader
import Z80Sbc.Bank.LoaderHeader
import Z80Sbc.Chat.Fragments
import Z80Sbc.Http.Fragments
import Z80Sbc.Http.Framing
import Z80Sbc.Chat.Service
import Z80Sbc.Chat.Ordering
import Z80Sbc.Terminal.Console
import Z80Sbc.Env.CommandFrame
import Z80Sbc.Env.Verbatim
import Z80Sbc.Http.Redirects
import Z80Sbc.Http.Decoders
import Z80Sbc.Chat.Extraction
import Z80Sbc.Bank.LoaderSafety
import Z80Sbc.Bank.Shim
import Z80Sbc.Bank.ShimTransparency
import Z80Sbc.Debugger.Assignment
import Z80Sbc.Oled.Convergence
import Z80Sbc.Weather.JsonScan
import Z80Sbc.Weather.Service
import Z80Sbc.Weather.Snapshot
import Z80Sbc.Env.Arithmetic
import Z80Sbc.Setup.Secrecy
import Z80Sbc.Autorun.Agreement
import Z80Sbc.Debugger.DirectoryDisk
import Z80Sbc.Debugger.RoundTrip
import Z80Sbc.Data.JsonMembers
import Z80Sbc.Weather.Names
import Z80Sbc.Weather.Extraction
import Z80Sbc.Bank.Context
import Z80Sbc.Concurrent.Seqlock
import Z80Sbc.Disk.Prefetch
import Z80Sbc.Bank.SearchFrame
import Z80Sbc.Bank.SearchNext
import Z80Sbc.Bank.Allocator
import Z80Sbc.Bank.ControlCells
import Z80Sbc.Bank.LibraryHandle
import Z80Sbc.Bank.Allocate
import Z80Sbc.Bank.FirstFit
import Z80Sbc.Chat.Confinement
import Z80Sbc.Chat.Exchange
import Z80Sbc.Sram.BootSafety
import Z80Sbc.Disk.BiosRecords
import Z80Sbc.Disk.HostDisk
import Z80Sbc.Pio.EngineSafety
import Z80Sbc.Pio.EngineProgress
