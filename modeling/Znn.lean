import Znn.Interaction.Semantics
import Znn.Bytes.Order
import Znn.Plan.Decode
import Znn.Plan.Encode
import Znn.Plan.RoundTrip
import Znn.Bytes.Usize
import Znn.Injector.Arch
import Znn.Injector.Sys
import Znn.Injector.Config
import Znn.Injector.PtraceOps
import Znn.Injector.Daemon
import Znn.Injector.Mode
import Znn.Injector.Kernel
import Znn.Injector.Run
import Znn.Injector.Calls
import Znn.Injector.Process
import Znn.Injector.Events
import Znn.Injector.Tally
import Znn.Injector.Grants
import Znn.Injector.Step
import Znn.Injector.Answered
import Znn.Injector.Leaves
import Znn.Injector.Spares
import Znn.Injector.Reports
import Znn.Injector.Accounting
import Znn.Injector.ReturnBreakpoint
import Znn.Injector.Signals
import Znn.Injector.Writes
import Znn.Injector.Overlay
import Znn.Injector.Confined
import Znn.Injector.Refusal
import Znn.Injector.Transparency
import Znn.Injector.Placement
import Znn.Text.Decimal
import Znn.Text.Hexadecimal
import Znn.Bytes.Encoding
import Znn.Injector.Tracefs
import Znn.Bytes.Framing
import Znn.Injector.TracePipe
import Znn.Injector.Fanotify
import Znn.Injector.Fileio
import Znn.Kpm.Format
import Znn.Kpm.Ring
import Znn.Kpm.Channel
import Znn.Kpm.Control
import Znn.Injector.Kpm
import Znn.Injector.Delivery
import Znn.Injector.Observed
import Znn.Injector.Visits
import Znn.Injector.Handled
import Znn.Injector.Modes
import Znn.Injector.Looping
import Znn.Injector.Chores
import Znn.Injector.Settled
import Znn.Injector.Places
import Znn.Injector.Owed
import Znn.Injector.Ignored
import Znn.Injector.Shortcut
import Znn.Injector.Deferral
import Znn.Injector.Requested
import Znn.Injector.Interworking
import Znn.Injector.Helpers
import Znn.Injector.Connector
import Znn.Injector.Decoding
import Znn.Interaction.Threads
import Znn.Bytes.View
import Znn.Loader.Elf
import Znn.Loader.ElfImage
import Znn.Loader.ElfBounds
import Znn.Loader.RuntimeLookup
import Znn.Loader.RuntimeBounds
import Znn.Loader.InlineHook
import Znn.Injector.ConfigSet
import Znn.Loader.PltHook
import Znn.Loader.PltOwnership
import Znn.Loader.Companion
import Znn.Loader.CompanionPeers
import Znn.Loader.ChannelNames
import Znn.Loader.CompanionDescriptors
import Znn.Loader.Hyos
import Znn.Loader.HyosDelivery
import Znn.Loader.HyosTree
import Znn.Injector.Reassembly
import Znn.Injector.Breakpoint
import Znn.Injector.SetupCall
import Znn.Injector.Alignment
import Znn.Injector.RedZone
import Znn.Text.Scanf
import Znn.Injector.Maps
import Znn.Loader.Maps
import Znn.Text.BasicRegex
import Znn.Loader.AnchorRegex
import Znn.Injector.Libraries
import Znn.Lists.Keyed
import Znn.Interaction.Iterate
import Znn.Loader.Debugdata
import Znn.Injector.ModuleTable
import Znn.Injector.Records
import Znn.Injector.Restart
import Znn.Injector.Attended
import Znn.Injector.Following
import Znn.Injector.ForkOrder
import Znn.Injector.ThreadGroups
import Znn.Loader.Engines
import Znn.Loader.Backends
import Znn.Injector.CompanionBooks
import Znn.Injector.Instances
import Znn.Injector.Verification
import Znn.Loader.And64InlineHook
import Znn.Loader.Loading
import Znn.Plan.Boot
