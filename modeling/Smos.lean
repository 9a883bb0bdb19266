import Smos.Base.Bitfield
import Smos.Base.Dlist
import Smos.Base.Heap
import Smos.Base.Prog
import Smos.Base.Radix
import Smos.Base.Ring
import Smos.Base.Run
import Smos.Base.Spans
import Smos.Base.Tiling
import Smos.RootServer.Bootstrap
import Smos.RootServer.UserCSpace
import Smos.RootServer.UtTable
import Smos.RootServer.UtPartition
import Smos.RootServer.UtAtomic
import Smos.RootServer.FrameLists
import Smos.RootServer.FrameRuns
import Smos.RootServer.Machine
import Smos.RootServer.Connections
import Smos.RootServer.Boot
import Smos.RootServer.Links
import Smos.RootServer.DeviceMemory
import Smos.RootServer.PageTables
import Smos.RootServer.DevicePages
import Smos.RootServer.ViewChecks
import Smos.RootServer.DeviceObjects
import Smos.RootServer.Mapping
import Smos.RootServer.WindowRanges
import Smos.Ipc.RequestRoundTrip
import Smos.Ipc.SpawnStrings
import Smos.Ipc.Replies
import Smos.Ipc.DecoderTotal
import Smos.Ipc.DecoderStale
import Smos.Ipc.ServerLoop
import Smos.Ipc.HandleCaps
import Smos.Ipc.Event
import Smos.RootServer.Lookups
import Smos.RootServer.StartSpecs
import Smos.RootServer.Authority
import Smos.RootServer.Badges
import Smos.RootServer.Lifecycle
import Smos.RootServer.NtfnBuffer
import Smos.FileServer.Handlers
import Smos.FileServer.Confinement
import Smos.Sddf.Channel
import Smos.Sddf.Pairing
import Smos.Base.Watermark
import Smos.RootServer.BootAddresses
import Smos.RootServer.SegmentImage
import Smos.RootServer.SegmentWindows
import Smos.Loader.ArgsPassing
import Smos.RootServer.ClockArm
import Smos.RootServer.IrqDispatch
import Smos.RootServer.FreeSlot
import Smos.RootServer.Timeouts
import Smos.FileServer.OpenAtomic
import Smos.Base.Acquire
import Smos.Drivers.Component
import Smos.Drivers.Regions
import Smos.Drivers.Client
import Smos.Drivers.PreInit
import Smos.Drivers.Config
import Smos.Drivers.Components
import Smos.Drivers.Virtualizers
import Smos.Drivers.Steps
import Smos.Drivers.Layouts
import Smos.Drivers.Loop
import Smos.Drivers.Configured
import Smos.Drivers.Covered
import Smos.Drivers.Pairing
import Smos.Drivers.OneClient
import Smos.Drivers.Robust
import Smos.Base.BitfieldSet
import Smos.RootServer.BootSlots
import Smos.RootServer.Sharing
import Smos.RootServer.SharingTurns
import Smos.RootServer.LiveViews
import Smos.RootServer.LiveViewTurns
import Smos.RootServer.ForwardedFaults
import Smos.RootServer.FaultAnswers
import Smos.Base.Blocks
import Smos.Fat.DiskIo
import Smos.Base.AtomicStore
import Smos.Fat.DiskRuns
import Smos.Base.SharedRing
import Smos.Fat.EventLoop
import Smos.Fat.EventRuns
import Smos.Base.Custody
import Smos.RootServer.FrameOwners
import Smos.RootServer.FrameOwnerTurns
import Smos.RootServer.FrameOwnerMoves
import Smos.RootServer.FrameOwnerRuns
import Smos.RootServer.ObjectBytes
import Smos.RootServer.ObjectBytesRuns
import Smos.RootServer.AddressSpaces
import Smos.RootServer.ProcessMemory
import Smos.RootServer.Pids
