import DynamicSwap.Library.Machine
import DynamicSwap.Library.Binary64
import DynamicSwap.Core.Helpers
import DynamicSwap.Core.Pointer
import DynamicSwap.Core.Heap
import DynamicSwap.Region.Construction
import DynamicSwap.Array.Registry
import DynamicSwap.Collector.Launch
import DynamicSwap.Swap.ConcurrentSwapIn
import DynamicSwap.Swap.Protocol
import DynamicSwap.Pager.Threads
import DynamicSwap.Pager.Headroom
import DynamicSwap.Pager.SwappedOut
import DynamicSwap.Pager.Budget
import DynamicSwap.Library.WriteBackCache
import DynamicSwap.Swap.Refinement
import DynamicSwap.Library.Holdings
import DynamicSwap.Region.Manager
import DynamicSwap.Region.Picking
import DynamicSwap.Region.Circulation
import DynamicSwap.Region.Room
import DynamicSwap.Region.InFlight
import DynamicSwap.Region.Remote
import DynamicSwap.Collector.Shutdown
import DynamicSwap.Pager.Shutdown
import DynamicSwap.Core.ObjectSize
import DynamicSwap.Pager.Overhead
import DynamicSwap.Collector.Walk
import DynamicSwap.Swap.SharedRing
import DynamicSwap.Collector.Evacuation
import DynamicSwap.Collector.Round
import DynamicSwap.Region.Refill
import DynamicSwap.Region.Allocation
import DynamicSwap.Array.Prefetcher
import DynamicSwap.Core.DsIds
import DynamicSwap.Collector.Preemption
import DynamicSwap.Collector.SlaveFn
import DynamicSwap.Allocation.NonBlocking
import DynamicSwap.Library.Monitor
import DynamicSwap.Collector.Waiting
import DynamicSwap.Library.Sections
import DynamicSwap.Region.Locking
import DynamicSwap.Swap.ObjectLocks
import DynamicSwap.Swap.ByteLevel
import DynamicSwap.Swap.ByteRefinement
import DynamicSwap.Library.Arenas
import DynamicSwap.Region.Placement
import DynamicSwap.Swap.LocalCache
import DynamicSwap.Library.History
import DynamicSwap.Pager.Coverage
import DynamicSwap.Pager.Passes
import DynamicSwap.Allocation.Blocking
import DynamicSwap.Pager.Scan
