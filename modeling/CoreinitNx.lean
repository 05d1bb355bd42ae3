import CoreinitNx.Library.Alignment
import CoreinitNx.HandleTable
import CoreinitNx.MemHeap
import CoreinitNx.ExpHeap.Basic
import CoreinitNx.Library.Tiling
import CoreinitNx.ExpHeap.Placement
import CoreinitNx.ExpHeap.Invariant
import CoreinitNx.ExpHeap.Runs
import CoreinitNx.ExpHeap.Allocatable
import CoreinitNx.ExpHeap.Canonical
import CoreinitNx.FrmHeap.Basic
import CoreinitNx.FrmHeap.Bounds
import CoreinitNx.FrmHeap.Runs
import CoreinitNx.FrmHeap.Allocatable
import CoreinitNx.FrmHeap.Recorded
import CoreinitNx.FrmHeap.Rollback
import CoreinitNx.FrmHeap.Disjoint
import CoreinitNx.FrmHeap.FailedCreate
import CoreinitNx.Library.Transition
import CoreinitNx.Library.Monitor
import CoreinitNx.Library.Ring
import CoreinitNx.Library.Wakeups
import CoreinitNx.Library.SlotTable
import CoreinitNx.Library.Slots
import CoreinitNx.MessageQueue.Basic
import CoreinitNx.MessageQueue.Deque
import CoreinitNx.MessageQueue.Wakeups
import CoreinitNx.Event.Basic
import CoreinitNx.Event.SignalAll
import CoreinitNx.Event.AutoReset
import CoreinitNx.Event.Released
import CoreinitNx.Semaphore.Basic
import CoreinitNx.Semaphore.Conservation
import CoreinitNx.Initialisation
import CoreinitNx.FileSystem.Basic
import CoreinitNx.FileSystem.Calls
import CoreinitNx.FileSystem.LastError
import CoreinitNx.FileSystem.Sessions
import CoreinitNx.FileSystem.Handles
import CoreinitNx.FileSystem.Settled
import CoreinitNx.FileSystem.ClosedOnce
import CoreinitNx.Thread.Basic
import CoreinitNx.Thread.Runs
import CoreinitNx.Thread.Recreated
import CoreinitNx.Thread.Callbacks
import CoreinitNx.Thread.Endings
import CoreinitNx.Ticks
import CoreinitNx.Alarm.Basic
import CoreinitNx.Alarm.Threads
import CoreinitNx.Alarm.Atomic
import CoreinitNx.Alarm.Alone
import CoreinitNx.Alarm.Cancel
import CoreinitNx.Alarm.Armed
import CoreinitNx.Alarm.Firing
import CoreinitNx.Alarm.Armings
import CoreinitNx.Alarm.Oversleep
import CoreinitNx.Alarm.ClockChange
import CoreinitNx.Mutex.Basic
import CoreinitNx.Mutex.Ownership
import CoreinitNx.Mutex.Answered
import CoreinitNx.Mutex.Recursive
import CoreinitNx.Mutex.Initialise
import CoreinitNx.Mutex.Calls
import CoreinitNx.DefaultHeap
import CoreinitNx.Ghs.Basic
import CoreinitNx.Ghs.Recycled
import CoreinitNx.Library.Gregorian
import CoreinitNx.Library.CInt
import CoreinitNx.Library.Requests
import CoreinitNx.Library.Dict
import CoreinitNx.Library.Distinct
import CoreinitNx.Rpx.Python
import CoreinitNx.Rpx.Basic
import CoreinitNx.Rpx.Image
import CoreinitNx.Rpx.Imports
import CoreinitNx.Census.Python
import CoreinitNx.Census.Basic
import CoreinitNx.Census.Grouping
import CoreinitNx.ExpHeap.BaseHeap
import CoreinitNx.ExpHeap.Policy
import CoreinitNx.ExpHeap.Accounting
import CoreinitNx.Library.Rescale
import CoreinitNx.Time.Basic
import CoreinitNx.Time.Civil
import CoreinitNx.Time.DayCount
import CoreinitNx.Time.Conversion
import CoreinitNx.Time.Calendar
import CoreinitNx.Time.SubSecond
import CoreinitNx.Time.Order
import CoreinitNx.SpinLock
import CoreinitNx.Time.Durations
import CoreinitNx.LockedCache
import CoreinitNx.FileSystem.Mappings
import CoreinitNx.FileSystem.Mount
import CoreinitNx.FileSystem.Directories
import CoreinitNx.FileSystem.Positions
import CoreinitNx.Cache
import CoreinitNx.Ghs.FlockPool
import CoreinitNx.Thread.Terminated
import CoreinitNx.Thread.Lives
import CoreinitNx.Thread.Counting
import CoreinitNx.Library.Search
import CoreinitNx.UserConfig
import CoreinitNx.DynLoad.Basic
import CoreinitNx.DynLoad.Names
import CoreinitNx.DynLoad.Modules
import CoreinitNx.Driver.Basic
import CoreinitNx.Driver.Shutdown
import CoreinitNx.Driver.SaveArea
import CoreinitNx.ExpHeap.FindContain
import CoreinitNx.Census.Frequency
import CoreinitNx.Library.Simulation
import CoreinitNx.HandleTable.Interleaved
import CoreinitNx.SpinLock.Exclusion
import CoreinitNx.Library.Contents
import CoreinitNx.ExpHeap.Contents
import CoreinitNx.MessageQueue.Delivery
import CoreinitNx.Event.ManualReset
import CoreinitNx.Time.Clock
import CoreinitNx.Thread.Attributes
import CoreinitNx.Mutex.Atomic
import CoreinitNx.Mutex.Signals
import CoreinitNx.Census.Reproducible
import CoreinitNx.Census.Images
import CoreinitNx.FrmHeap.Contents
import CoreinitNx.Library.Holdings
import CoreinitNx.FileSystem.Streams
import CoreinitNx.FileSystem.StreamRuns
import CoreinitNx.Library.Critical
import CoreinitNx.Semaphore.Atomic
import CoreinitNx.MessageQueue.Atomic
import CoreinitNx.Event.Atomic
import CoreinitNx.Alarm.Timers
import CoreinitNx.Alarm.Provenance
import CoreinitNx.Rpx.Listing
import CoreinitNx.Rpx.Dump
import CoreinitNx.Library.Owners
import CoreinitNx.Ghs.Interleaved
import CoreinitNx.Ghs.Alone
import CoreinitNx.Ghs.Exclusive
