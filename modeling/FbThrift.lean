import FbThrift.Patch.Frame
import FbThrift.Patch.MapMaskCovers
import FbThrift.Rocket.MemoryAccounting
import FbThrift.Rocket.AlignedSplitting
import FbThrift.Rocket.StreamId
import FbThrift.Rocket.Delivery
import FbThrift.Util.VarintVector
import FbThrift.FastThrift.FragmentOrder
import FbThrift.FastThrift.FrameReassembly
import FbThrift.Rocket.BiDiTermination
import FbThrift.FastThrift.SrptHeapRuns
import FbThrift.FastThrift.FrameCodec
import FbThrift.Rocket.WriteAccounting
import FbThrift.Rocket.WriteOffsets
import FbThrift.Whisker.StandaloneTemplates
import FbThrift.Whisker.RenderBalance
import FbThrift.Frozen.HashTableFreeze
import FbThrift.Dynamic.RoundTripLimits
import FbThrift.Dynamic.DigestOrder
import FbThrift.Server.ParallelConcurrency
import FbThrift.Server.TokenBucketConcurrency
import FbThrift.Async.PublisherDelivery
import FbThrift.Async.SinkFlowControl
import FbThrift.Protocol.RefillRuns
import FbThrift.Protocol.FieldLookahead
import FbThrift.Protocol.MaskedFilter
import FbThrift.Protocol.SizeAccount
import FbThrift.Protocol.Transcoding
import FbThrift.Protocol.Truncation
import FbThrift.FastThrift.FrameLengthParser
import FbThrift.Dynamic.TextValidation
import FbThrift.Dynamic.TraversalExact
import FbThrift.Whisker.Indentation
import FbThrift.StaticPatch.Emptiness
import FbThrift.Server.CpuConcurrency
import FbThrift.Compiler.IncludeCycles
import FbThrift.Server.RoundRobinFairness
import FbThrift.Server.WeightedAccounting
import FbThrift.Compiler.DuplicateKeys
import FbThrift.Frozen.Fast64BitRemainder
import FbThrift.Patch.TypeMasks
import FbThrift.Transport.HeaderBoundary
import FbThrift.Protocol.PendingBoolean
import FbThrift.Async.StreamCredits
import FbThrift.Async.MultiPublisherDelivery
