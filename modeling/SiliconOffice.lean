import SiliconOffice.Library.OrderedDict
import SiliconOffice.Library.Related
import SiliconOffice.Library.Framing
import SiliconOffice.Library.Runs
import SiliconOffice.Library.Nesting
import SiliconOffice.Library.Components
import SiliconOffice.Library.Stamps
import SiliconOffice.Library.Pool
import SiliconOffice.Library.Calendar
import SiliconOffice.Library.LastWriter
import SiliconOffice.Library.Lockstep
import SiliconOffice.Library.Memo
import SiliconOffice.Library.LockedRecord
import SiliconOffice.Library.Writers
import SiliconOffice.Library.Fade
import SiliconOffice.Library.Raster
import SiliconOffice.Library.Rounding
import SiliconOffice.Python.Json
import SiliconOffice.Python.Text
import SiliconOffice.Python.Number
import SiliconOffice.Python.DateTime
import SiliconOffice.Common.Ipc
import SiliconOffice.Common.Schema
import SiliconOffice.Common.Pricing
import SiliconOffice.Emitter.HookEmitter
import SiliconOffice.Daemon.StateMachine
import SiliconOffice.Daemon.Registry
import SiliconOffice.Daemon.UdpListener
import SiliconOffice.Daemon.Silence
import SiliconOffice.Daemon.WellTyped
import SiliconOffice.Daemon.Session
import SiliconOffice.Daemon.Labels
import SiliconOffice.Daemon.Folding
import SiliconOffice.Daemon.Since
import SiliconOffice.Daemon.Sweep
import SiliconOffice.Daemon.Crashes
import SiliconOffice.Daemon.ColdStart
import SiliconOffice.Daemon.Isolation
import SiliconOffice.Daemon.Liveness
import SiliconOffice.Daemon.Broadcaster
import SiliconOffice.Daemon.Moves
import SiliconOffice.Daemon.Pending
import SiliconOffice.Daemon.Clients
import SiliconOffice.Daemon.Ordering
import SiliconOffice.Daemon.Overtaking
import SiliconOffice.Daemon.Stalling
import SiliconOffice.Daemon.Delivery
import SiliconOffice.Daemon.Updates
import SiliconOffice.Daemon.Rest
import SiliconOffice.Frontend.NetClient
import SiliconOffice.Frontend.ClientThread
import SiliconOffice.Frontend.Usage
import SiliconOffice.Frontend.UsageCache
import SiliconOffice.Frontend.UsageFailures
import SiliconOffice.Frontend.UsageThread
import SiliconOffice.Frontend.WeekWindow
import SiliconOffice.Frontend.Layout
import SiliconOffice.Frontend.App
import SiliconOffice.Frontend.Healing
import SiliconOffice.Frontend.Slots
import SiliconOffice.Frontend.Desks
import SiliconOffice.Frontend.Consistency
import SiliconOffice.Frontend.Resend
import SiliconOffice.Frontend.Sprites
import SiliconOffice.Frontend.Render
import SiliconOffice.Frontend.Pictures
import SiliconOffice.Frontend.Window
import SiliconOffice.Frontend.Timers
import SiliconOffice.Frontend.Scene
import SiliconOffice.Frontend.Turns
import SiliconOffice.Frontend.Frames
import SiliconOffice.Frontend.Seating
import SiliconOffice.Frontend.Legible
import SiliconOffice.Frontend.Cells
import SiliconOffice.Frontend.Animation
import SiliconOffice.Frontend.Painting
import SiliconOffice.Frontend.Banner
import SiliconOffice.Pipeline.Replica
import SiliconOffice.Pipeline.Emission
import SiliconOffice.Pipeline.Reports
import SiliconOffice.Pipeline.Truth
import SiliconOffice.Pipeline.Convergence
import SiliconOffice.Pipeline.Display
import SiliconOffice.Pipeline.Records
import SiliconOffice.Pipeline.NeverFrozen
import SiliconOffice.Installer.InstallHooks
import SiliconOffice.Installer.Merge
import SiliconOffice.Installer.Uninstall
import SiliconOffice.Installer.Backups
import SiliconOffice.Installer.Interruption
