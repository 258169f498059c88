import PicoGpu.Lib.Clocked
import PicoGpu.Transfer
import PicoGpu.Link
import PicoGpu.FragmentLink
import PicoGpu.TransferStream
import PicoGpu.Lib.Atomic
import PicoGpu.Memory
import PicoGpu.MemorySystem
import PicoGpu.Isa
import PicoGpu.ShaderUnit
import PicoGpu.PicoGpuBinary
import PicoGpu.RoundTrip
import PicoGpu.Parser
import PicoGpu.Reset
import PicoGpu.EntryCache
import PicoGpu.IsaCache
import PicoGpu.InputRegisters
import PicoGpu.Interpolation
import PicoGpu.FragmentDirectives
import PicoGpu.Preamble
import PicoGpu.ShaderUnitCommands
import PicoGpu.ShaderArray
import PicoGpu.ResponseMatching
import PicoGpu.DirectiveRules
import PicoGpu.ParsedBinary
import PicoGpu.LoadProgram
import PicoGpu.InputStream
import PicoGpu.ShaderRequests
import PicoGpu.RequestStreams
import PicoGpu.RequestAgreement
import PicoGpu.ValidatedRequests
import PicoGpu.StagingBuffers
import PicoGpu.PrimitiveAssembler
import PicoGpu.TransferLengths
import PicoGpu.CommandLoop
import PicoGpu.FragmentShader
import PicoGpu.FragmentBatches
import PicoGpu.CommandStreamer
import PicoGpu.MemoryClients
import PicoGpu.Gpu
import PicoGpu.InstructionEffects
import PicoGpu.RegisterSetup
import PicoGpu.Compatibility
import PicoGpu.DirectiveAcceptance
import PicoGpu.Lib.Nearest
import PicoGpu.ReceiveTimeout
import PicoGpu.ZBuffer
import PicoGpu.MergerRun
import PicoGpu.MergerSystem
import PicoGpu.Coverage
import PicoGpu.Lib.Recency
import PicoGpu.LruCache
import PicoGpu.DirectiveTables
import PicoGpu.Divisions
import PicoGpu.LaneRelations
import PicoGpu.FixedDivisors
import PicoGpu.RasterOrder
import PicoGpu.Arbitration
import PicoGpu.EmptyWork
import PicoGpu.CommandQueue
import PicoGpu.CommandTimes
import PicoGpu.Lib.Slice
import PicoGpu.BlitSystems
import PicoGpu.Lib.Munch
import PicoGpu.Scanner
import PicoGpu.OutOfRange
import PicoGpu.Grammar
import PicoGpu.SourceLines
import PicoGpu.LineReading
import PicoGpu.SectionReading
import PicoGpu.SectionOutcome
import PicoGpu.SectionRules
import PicoGpu.InstructionSection
import PicoGpu.SourceText
import PicoGpu.RejectedTexts
import PicoGpu.Lib.Streams
import PicoGpu.MemoryWrites
import PicoGpu.FragmentOrder
import PicoGpu.CommandOrder
import PicoGpu.GpuMemory
import PicoGpu.HandshakeLink
import PicoGpu.ReadOnlyData
import PicoGpu.VertexFetch
import PicoGpu.VertexStream
import PicoGpu.VertexOrder
