import SlabHeap.Chain
import SlabHeap.Cache.Group
import SlabHeap.SharedHeap
import SlabHeap.Proofs.SlabSessions
import SlabHeap.Proofs.SpaceLists
import SlabHeap.Proofs.CacheRefinement
import SlabHeap.Proofs.RegionPages
import SlabHeap.Proofs.GroupRefinement
import SlabHeap.Proofs.Aliasing
import SlabHeap.Proofs.Progress
import SlabHeap.Proofs.Accounting
import SlabHeap.Proofs.Frames
import SlabHeap.Proofs.Teardown
import SlabHeap.Proofs.TableMap
import SlabHeap.Proofs.Relied
import SlabHeap.Proofs.Noninterference
import SlabHeap.Proofs.Demand
import SlabHeap.Proofs.Refusals
import SlabHeap.Proofs.PeakLoad
import SlabHeap.Proofs.PageCalls
import SlabHeap.Proofs.PageStack
import SlabHeap.Proofs.Reuse
import SlabHeap.Proofs.Undoing
import SlabHeap.Proofs.Independence
import SlabHeap.Proofs.Exhaustion
import SlabHeap.Proofs.FreeOrder
import SlabHeap.Proofs.Provenance
import SlabHeap.Proofs.BestCapacity
import SlabHeap.Proofs.SlabLayout
import SlabHeap.Proofs.CacheSessions
import SlabHeap.Proofs.StrayFrees
import SlabHeap.Proofs.Rounding
import SlabHeap.Proofs.AddedRegions
import SlabHeap.Proofs.ListUpdates
