import VitaSX2.Lib.Deadlock
import VitaSX2.Region.EdgeCopy.Location
import VitaSX2.Region.EdgeCopy.Schedule
import VitaSX2.Region.EdgeCopy.Machine
import VitaSX2.Region.EdgeCopy.Fragment
import VitaSX2.Region.EdgeCopy.Drain
import VitaSX2.Region.EdgeCopy.Contract
import VitaSX2.Lib.BoundedRun
import VitaSX2.Vu.Unpack
import VitaSX2.Vu.CommandEpoch
import VitaSX2.Vu.Submissions
import VitaSX2.Lib.PacketChain
import VitaSX2.Mtvu.Ring
import VitaSX2.Mtvu.Lap
import VitaSX2.Mtvu.Invariant
import VitaSX2.Mtvu.Fifo
import VitaSX2.Region.IR.Evaluate
import VitaSX2.Region.IR.Interpret
import VitaSX2.Region.IR.Verify
import VitaSX2.Region.IR.Run
import VitaSX2.Lib.Settle
import VitaSX2.Region.Plan.Extension
import VitaSX2.Region.Plan.ExtensionRun
import VitaSX2.Region.IR.Builder
import VitaSX2.Region.IR.Lift
import VitaSX2.Region.Plan.Origins
import VitaSX2.Region.IR.Publish
import VitaSX2.Region.Plan.Overlay
import VitaSX2.Region.Plan.OverlayRun
import VitaSX2.Kernel.LoopKernel
import VitaSX2.Kernel.StoreReadDisjoint
import VitaSX2.Lib.TokenCount
import VitaSX2.Vif.Payload
import VitaSX2.Vif.Span
import VitaSX2.Vif.Provenance
import VitaSX2.Vif.ProvenanceInvariant
import VitaSX2.Vif.ProvenanceRun
import VitaSX2.InputRing.Machine
import VitaSX2.InputRing.Invariant
import VitaSX2.InputRing.Outside
import VitaSX2.InputRing.Inside
import VitaSX2.InputRing.Run
import VitaSX2.Vu1.LowerKind
import VitaSX2.Vu1.PairPlan
import VitaSX2.Vu1.Machine
import VitaSX2.Vu1.Blocks
import VitaSX2.Lib.Dataflow
import VitaSX2.Vu1.Analysis
import VitaSX2.Vu1.BlockFacts
import VitaSX2.Vu1.Values
import VitaSX2.Vu1.Path
import VitaSX2.Vu1.Soundness
import VitaSX2.Vu1.CfgRun
import VitaSX2.Lib.CountedLoop
import VitaSX2.Vif.Neon
import VitaSX2.Vif.UnpackVector
import VitaSX2.Vif.UnpackLoop
import VitaSX2.Vif.Burst
import VitaSX2.Vif.BurstFacts
import VitaSX2.Vif.UnpackAgreement
import VitaSX2.Lib.Deferral
import VitaSX2.Vif.Deferred
import VitaSX2.Vif.UnpackFold
import VitaSX2.Vif.UnpackPayload
import VitaSX2.Vif.DeferredSpan
import VitaSX2.Vif.DeferredRun
import VitaSX2.Lib.Interleaving
import VitaSX2.Threading.ProgressEvent
import VitaSX2.Threading.ProgressEventRun
import VitaSX2.Gs.Notification
import VitaSX2.Gs.NotificationRun
import VitaSX2.Gs.DrainWait
import VitaSX2.Gs.DrainWaitRun
import VitaSX2.Gxm.Allocator
import VitaSX2.Gxm.Residency
import VitaSX2.Gxm.ResidencyFacts
import VitaSX2.Gxm.Coherence
import VitaSX2.Lib.LittleEndian
import VitaSX2.SaveState.Raw
import VitaSX2.SaveState.Container
import VitaSX2.SaveState.Readers
import VitaSX2.SaveState.Decoding
import VitaSX2.SaveState.Writers
import VitaSX2.SaveState.Codec
import VitaSX2.Path1.Ring
import VitaSX2.Path1.RingRun
import VitaSX2.Path1.Completion
import VitaSX2.Path1.CompletionFacts
import VitaSX2.Path1.ConsumptionFacts
import VitaSX2.Path1.System
import VitaSX2.Path1.Sound
import VitaSX2.Path1.Order
import VitaSX2.Path1.OrderRun
import VitaSX2.Path1.Epoch
import VitaSX2.Lib.Runs
import VitaSX2.Region.IR.SourceImage
import VitaSX2.Vu.RawPath1
import VitaSX2.Gxm.Arena
import VitaSX2.Gxm.ArenaSlab
import VitaSX2.Gxm.ArenaRun
import VitaSX2.Lib.Marking
import VitaSX2.Lib.TopologicalOrder
import VitaSX2.Vu1.Reachability
import VitaSX2.Vu1.Layout
import VitaSX2.Vu1.PairBound
import VitaSX2.Vu1.NaturalLoops
import VitaSX2.Vu1.LoopCounter
import VitaSX2.Lib.FirstFit
import VitaSX2.Lib.Grouping
import VitaSX2.Region.Spill.Phase
import VitaSX2.Region.Spill.Merge
import VitaSX2.Region.Spill.Classes
import VitaSX2.Region.Spill.Place
import VitaSX2.Lib.FloorSum
import VitaSX2.Vif.Staging
import VitaSX2.Vif.StagingRun
import VitaSX2.Region.Locations.Preset
import VitaSX2.Region.Locations.Affinity
import VitaSX2.Region.Locations.Scan
import VitaSX2.Region.Locations.Allocate
import VitaSX2.Region.Locations.Resident
import VitaSX2.Lib.Armv7
import VitaSX2.Lib.Armv7Assembly
import VitaSX2.A32.CodeBuffer
import VitaSX2.A32.Emit
import VitaSX2.A32.Words
import VitaSX2.A32.Exact
import VitaSX2.Gxm.AllocatorExact
import VitaSX2.Gxm.AllocatorRun
import VitaSX2.Gxm.AllocatePairUndo
import VitaSX2.Gxm.AcquireAlike
import VitaSX2.Gxm.AcquireAtomic
import VitaSX2.Vif.Binding
import VitaSX2.Lib.TopologicalSort
import VitaSX2.Lib.Walks
import VitaSX2.Region.Island.Build
import VitaSX2.Lib.Attempt
import VitaSX2.Region.Island.Dominators
import VitaSX2.Region.Island.Loops
import VitaSX2.Lib.Laminar
import VitaSX2.Region.Island.Nesting
import VitaSX2.Region.Island.Topology
import VitaSX2.Vu1.StructuredControl
import VitaSX2.Vu1.LoopFacts
import VitaSX2.Vu1.LoopForest
import VitaSX2.Vu1.ControlChecks
import VitaSX2.Vu1.LexicalForest
import VitaSX2.Vu1.LeaderReach
import VitaSX2.MicroCache.Ownership
import VitaSX2.MicroCache.OwnershipFacts
import VitaSX2.MicroCache.OwnershipRun
import VitaSX2.Gxm.Texture
import VitaSX2.Gxm.TextureLayout
import VitaSX2.Gxm.TextureCopy
import VitaSX2.Region.IR.Progress
import VitaSX2.Region.Guest.Interpreter
import VitaSX2.Lib.StraightLine
import VitaSX2.Region.Guest.Emit
import VitaSX2.Region.Guest.LowerInteger
import VitaSX2.Region.Guest.LowerNonBranch
import VitaSX2.Region.Guest.Branch
import VitaSX2.Region.Guest.LowerBlock
import VitaSX2.Region.Guest.LowerProgram
