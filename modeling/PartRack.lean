import PartRack.Lib.LittleEndian
import PartRack.Lib.Slots
import PartRack.Lib.Runs
import PartRack.Lib.OneBased
import PartRack.Lib.Buffers
import PartRack.Lib.ErrorPatterns
import PartRack.Lib.Crc
import PartRack.Lib.ChangedBits
import PartRack.Lib.Rounding
import PartRack.Lib.ExclusiveOr
import PartRack.Lib.CrcDifference
import PartRack.Lib.Checks
import PartRack.Lib.Deadlines
import PartRack.Lib.Simulation
import PartRack.Lib.Stock
import PartRack.Protocol
import PartRack.AdvPayload
import PartRack.Checksums
import PartRack.DeviceHealth
import PartRack.DeviceHealth.Report
import PartRack.BindingTable.Model
import PartRack.BindingTable.Commit
import PartRack.BindingTable.Loops
import PartRack.BindingTable.Contents
import PartRack.BindingTable.Refinement
import PartRack.BindingTable.History
import PartRack.BindingTable.Verdict
import PartRack.BindingTable.Repeat
import PartRack.BindingTable.VersionStamp
import PartRack.BindingTable.MoveBlock
import PartRack.BindingTable.InsertRemove
import PartRack.BindingTable.Corruption
import PartRack.BindingTable.Stock
import PartRack.BindingTable.Fingerprint
import PartRack.Persistence.Snapshot
import PartRack.Persistence.Settings
import PartRack.Persistence.Restore
import PartRack.Persistence.Corruption
import PartRack.ControlPoint.Dispatcher
import PartRack.ControlPoint.Model
import PartRack.ControlPoint.TableInfo
import PartRack.ControlPoint.Status
import PartRack.ControlPoint.StorageFailure
import PartRack.ControlPoint.Resend
import PartRack.ControlPoint.Trace
import PartRack.ControlPoint.Containment
import PartRack.ReadAll.Pacer
import PartRack.ReadAll.Session
import PartRack.ReadAll.Snapshot
import PartRack.ReadAll.Refinement
import PartRack.ReadAll.Restart
import PartRack.Lifecycle.Model
import PartRack.Lifecycle.Invalidations
import PartRack.Lifecycle.Advertising
import PartRack.Lifecycle.Freshness
import PartRack.Light.Model
import PartRack.Light.Frame
import PartRack.Light.Control
import PartRack.Light.Interleaving
import PartRack.Light.Expiry
import PartRack.Light.InForce
import PartRack.App.Model
import PartRack.App.Handlers
import PartRack.App.Steps
import PartRack.App.Invariant
import PartRack.App.Broadcast
import PartRack.App.Versions
import PartRack.App.Mirror
import PartRack.App.Reader
import PartRack.App.Recovery
import PartRack.App.Updates
import PartRack.App.Lights
import PartRack.MainLoop
import PartRack.MainLoop.StatusLeds
import PartRack.HostTools.SlotRecord
import PartRack.HostTools.LightCommand
import PartRack.HostTools.Agreement
import PartRack.HostTools.DestructiveFlow
import PartRack.HostTools.Client
import PartRack.HostTools.Batch
import PartRack.HostTools.StatusTests
