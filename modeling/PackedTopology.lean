import PackedTopology.Grid
import PackedTopology.Main
import PackedTopology.Script
import PackedTopology.Zlib.Buffer
import PackedTopology.Proofs.Action
import PackedTopology.Proofs.BitQueue
import PackedTopology.Proofs.FieldNumber
import PackedTopology.Proofs.Packing
import PackedTopology.Proofs.Unpacking
import PackedTopology.Proofs.Source
import PackedTopology.Proofs.ByteReader
import PackedTopology.Proofs.RecordGrammar
import PackedTopology.Proofs.Consumption
import PackedTopology.Proofs.FieldGrammar
import PackedTopology.Proofs.Emission
import PackedTopology.Proofs.SegmentationRoundTrip
import PackedTopology.Proofs.SortedMappings
import PackedTopology.Proofs.IndexRoundTrip
import PackedTopology.Proofs.MixedStream
import PackedTopology.Proofs.IndexGrammar
import PackedTopology.Proofs.IndexCanonical
import PackedTopology.Proofs.Pouring
import PackedTopology.Proofs.BoundedRun
import PackedTopology.Proofs.FailedWrite
import PackedTopology.Proofs.Delivery
import PackedTopology.Proofs.Accounting
import PackedTopology.Proofs.WordBytes
import PackedTopology.Proofs.Reencoding
import PackedTopology.Proofs.IndexReencoding
import PackedTopology.Proofs.Directory
import PackedTopology.Proofs.Task
import PackedTopology.Proofs.Digits
import PackedTopology.Proofs.WrittenTable
import PackedTopology.Proofs.SegmentationCommands
import PackedTopology.Proofs.Inspection
import PackedTopology.Proofs.CommandRoundTrip
import PackedTopology.Proofs.RejectedPack
import PackedTopology.Proofs.OrphanHeader
import PackedTopology.Proofs.FailedReading
import PackedTopology.Proofs.Rounding
import PackedTopology.Proofs.ShortestDecimal
import PackedTopology.Proofs.NumberText
import PackedTopology.Proofs.WrittenIndex
import PackedTopology.Proofs.CompleteOutput
import PackedTopology.Proofs.IndexCommandRoundTrip
import PackedTopology.Proofs.ConstraintRange
import PackedTopology.Proofs.SegmentationRefusal
import PackedTopology.Proofs.VertexSearch
import PackedTopology.Proofs.IndexRefusal
import PackedTopology.Proofs.Grid
import PackedTopology.Proofs.FlippedBit
import PackedTopology.Proofs.AnySource
import PackedTopology.Proofs.RangeEnds
import PackedTopology.Proofs.ValueOrders
import PackedTopology.Proofs.QueueRoom
import PackedTopology.Proofs.StreamFormat
import PackedTopology.Proofs.BitDecoding
import PackedTopology.Proofs.CodeWords
import PackedTopology.Proofs.CodeDescription
import PackedTopology.Proofs.BlockDecoding
import PackedTopology.Proofs.StreamDecoding
import PackedTopology.Proofs.BufferRoundTrip
