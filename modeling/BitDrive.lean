import BitDrive.Android.Checksum
import BitDrive.Android.Fragments
import BitDrive.Android.ReplayFilter
import BitDrive.Android.ServerLifecycle
import BitDrive.Bluetooth.Server
import BitDrive.Bluetooth.Stream
import BitDrive.Core.Atomicity
import BitDrive.Core.ConfigTable
import BitDrive.Core.EventObservers
import BitDrive.Core.PairedDevices
import BitDrive.Core.Requests
import BitDrive.Core.SessionRecords
import BitDrive.Core.Startup
import BitDrive.Core.SyncHistory
import BitDrive.Core.TrustedDevices
import BitDrive.Desktop.DeviceIds
import BitDrive.Desktop.Upgrades
import BitDrive.Protocol.ChannelThreads
import BitDrive.Protocol.Compatibility
import BitDrive.Protocol.ControlStream
import BitDrive.Protocol.ErrorRecovery
import BitDrive.Protocol.Features
import BitDrive.Protocol.FlowControl
import BitDrive.Protocol.FragmentFlags
import BitDrive.Protocol.Freshness
import BitDrive.Protocol.KeyOrigin
import BitDrive.Protocol.KeySeparation
import BitDrive.Protocol.KeyTransport
import BitDrive.Protocol.Link
import BitDrive.Protocol.Loss
import BitDrive.Protocol.PayloadLimit
import BitDrive.Protocol.ReadBack
import BitDrive.Protocol.RequiredCapabilities
import BitDrive.Protocol.Reset
import BitDrive.Protocol.SendCheck
import BitDrive.Protocol.ServiceDirectory
import BitDrive.Protocol.ServiceEvents
import BitDrive.Protocol.ServiceFramework
import BitDrive.Protocol.SessionManager
