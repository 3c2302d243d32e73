import StoSys.Lib.Program
import StoSys.Ftl.State
import StoSys.Ftl.ZnsDevice
import StoSys.Ftl.Setup
import StoSys.Ftl.IoSpec
import StoSys.Ftl.Zones
import StoSys.Ftl.Merge
import StoSys.Ftl.MergeLoop
import StoSys.Ftl.Collect
import StoSys.Ftl.Reading
import StoSys.Ftl.Writing
import StoSys.Ftl.Session
import StoSys.Properties.ReadYourWrites
import StoSys.Properties.MultiBlock
import StoSys.Ftl.History
import StoSys.Properties.Watermark
import StoSys.Properties.ZoneAllocation
import StoSys.Ftl.LargeWrite
import StoSys.Properties.LargeWrites
import StoSys.Ftl.Recorded
import StoSys.Properties.CopyBeforeErase
import StoSys.Properties.ReadsDuringCollection
import StoSys.Properties.ForeignData
import StoSys.Lib.Faults
import StoSys.Ftl.FaultyMerge
import StoSys.Properties.FailedCollection
import StoSys.Ftl.Restart
import StoSys.Properties.Resume
import StoSys.Properties.PassesEnd
import StoSys.Ftl.ReadPaths
import StoSys.Properties.SmallReads
import StoSys.Properties.LargeReads
import StoSys.Properties.LockDiscipline
import StoSys.Lib.Monitor
import StoSys.Ftl.Threads
import StoSys.Properties.SleepingWriters
import StoSys.Ftl.Schedules
import StoSys.Properties.Shutdown
import StoSys.Properties.IndependentSessions
import StoSys.Ftl.Cursor
import StoSys.Properties.FailedWrites
import StoSys.Ftl.FileDevice
import StoSys.Properties.SameWrites
import StoSys.Properties.ZoneAddresses
import StoSys.Lib.Batch
import StoSys.Properties.Transfers
import StoSys.M1.IoWithMdts
import StoSys.Properties.M1Transfers
import StoSys.Common.Patterns
import StoSys.Properties.Capacity
import StoSys.Properties.FreeZones
import StoSys.Properties.Translation
import StoSys.Properties.Grouping
import StoSys.M1.Device
import StoSys.Properties.DeviceScan
import StoSys.M3.FullDevice
import StoSys.Properties.Verifier
import StoSys.Properties.ZoneAccounting
import StoSys.Lib.Strings
import StoSys.M45.Uri
import StoSys.Properties.UriParsers
import StoSys.Lib.Twin
import StoSys.Lib.Liveness
import StoSys.Ftl.Flags
import StoSys.Properties.Interleavings
import StoSys.Properties.ConcurrentWrites
import StoSys.Properties.Endings
import StoSys.Properties.Termination
import StoSys.Lib.Refinement
import StoSys.M3.Ideal
import StoSys.M3.Runs
import StoSys.Ftl.ByteDevice
import StoSys.Properties.Interchange
import StoSys.Lib.Cost
import StoSys.Ftl.Cost
import StoSys.Properties.Cadence
import StoSys.M2.Tests
import StoSys.M2.Runs
import StoSys.Properties.M2Tests
import StoSys.Lib.Parallel
import StoSys.M1.Tests
import StoSys.M1.Local
import StoSys.Properties.M1Threads
import StoSys.Properties.M1Tests
import StoSys.M45.Main
import StoSys.Properties.M45Main
import StoSys.M3.Persistency
import StoSys.Properties.Persistency
