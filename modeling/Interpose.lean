import Interpose.Assembler
import Interpose.Assembler.Spelled
import Interpose.Bytes.Datum
import Interpose.Bytes.Hex
import Interpose.Bytes.LittleEndian
import Interpose.Bytes.Reader
import Interpose.Cache.Basic
import Interpose.Cache.Disk
import Interpose.Cache.Memory
import Interpose.Class.Basic
import Interpose.Class.Define
import Interpose.Class.Table
import Interpose.ClassFile.Basic
import Interpose.ClassFile.Codec
import Interpose.ClassFile.Listing
import Interpose.Config.Basic
import Interpose.Config.Document
import Interpose.Context
import Interpose.Decimal.Shortest
import Interpose.Descriptor.Basic
import Interpose.Descriptor.Parser
import Interpose.Digest.Crc32
import Interpose.Digest.Sha256
import Interpose.Dispatch.Handler
import Interpose.Dispatch.Record
import Interpose.Dispatch.Recorder
import Interpose.Dispatch.Script
import Interpose.Dispatch.Shadow
import Interpose.Dispatch.Wrangler
import Interpose.Files.Path
import Interpose.Files.Tree
import Interpose.Heap
import Interpose.Instruction.Basic
import Interpose.Instruction.Codec
import Interpose.Instrument.Constructor
import Interpose.Instrument.Error
import Interpose.Instrument.Naming
import Interpose.Instrument.Stub
import Interpose.Instrument.Transform
import Interpose.Loading.Error
import Interpose.Loading.Loader
import Interpose.Loading.Policy
import Interpose.Loading.Realm
import Interpose.Loading.Resources
import Interpose.Machine.Basic
import Interpose.Machine.Error
import Interpose.Machine.Execute
import Interpose.Machine.Frame
import Interpose.Machine.Request
import Interpose.Machine.Step
import Interpose.Opcode
import Interpose.Pool
import Interpose.Proofs.AcceptedFiles
import Interpose.Proofs.AssembledStubs
import Interpose.Proofs.Assembling
import Interpose.Proofs.Audits
import Interpose.Proofs.Balance
import Interpose.Proofs.Branches
import Interpose.Proofs.CacheTransparency
import Interpose.Proofs.Caches
import Interpose.Proofs.CallDepths
import Interpose.Proofs.CallEffects
import Interpose.Proofs.CallThrough
import Interpose.Proofs.CircularHierarchies
import Interpose.Proofs.ClassFiles
import Interpose.Proofs.ClassPaths
import Interpose.Proofs.ClosedMachines
import Interpose.Proofs.Codec
import Interpose.Proofs.Congruences
import Interpose.Proofs.CongruentSteps
import Interpose.Proofs.ConstructorChains
import Interpose.Proofs.Constructors
import Interpose.Proofs.Courses
import Interpose.Proofs.Damage
import Interpose.Proofs.DecodedPools
import Interpose.Proofs.DecodingFaults
import Interpose.Proofs.DefaultConstructors
import Interpose.Proofs.Deferral
import Interpose.Proofs.DeferredInitializers
import Interpose.Proofs.DeferredTurns
import Interpose.Proofs.Definitions
import Interpose.Proofs.Depths
import Interpose.Proofs.DescriptorBytes
import Interpose.Proofs.DescriptorGrammar
import Interpose.Proofs.Descriptors
import Interpose.Proofs.DirectCalls
import Interpose.Proofs.Directories
import Interpose.Proofs.DiskCaches
import Interpose.Proofs.Entries
import Interpose.Proofs.Executions
import Interpose.Proofs.FailedWrites
import Interpose.Proofs.FieldAccess
import Interpose.Proofs.FieldSequences
import Interpose.Proofs.Fields
import Interpose.Proofs.FileTrees
import Interpose.Proofs.Following
import Interpose.Proofs.Fuel
import Interpose.Proofs.Headers
import Interpose.Proofs.Heaps
import Interpose.Proofs.IndexedPools
import Interpose.Proofs.Initialization
import Interpose.Proofs.InsetHandlers
import Interpose.Proofs.InsetLoads
import Interpose.Proofs.InsetRequests
import Interpose.Proofs.InsetSteps
import Interpose.Proofs.Insets
import Interpose.Proofs.Instructions
import Interpose.Proofs.IntegerDivision
import Interpose.Proofs.Intercepted
import Interpose.Proofs.InterceptedCalls
import Interpose.Proofs.LabelResolution
import Interpose.Proofs.Layouts
import Interpose.Proofs.LineLoads
import Interpose.Proofs.Lineages
import Interpose.Proofs.LoadDepths
import Interpose.Proofs.LoadHistories
import Interpose.Proofs.LoadOrder
import Interpose.Proofs.LoadTurns
import Interpose.Proofs.LoadedNames
import Interpose.Proofs.Loading
import Interpose.Proofs.LocalSlots
import Interpose.Proofs.Machines
import Interpose.Proofs.MethodLookups
import Interpose.Proofs.Methods
import Interpose.Proofs.Openings
import Interpose.Proofs.PastStubs
import Interpose.Proofs.PathRounds
import Interpose.Proofs.Pools
import Interpose.Proofs.Precedence
import Interpose.Proofs.Readers
import Interpose.Proofs.Records
import Interpose.Proofs.Requests
import Interpose.Proofs.Results
import Interpose.Proofs.SearchOrder
import Interpose.Proofs.Shapes
import Interpose.Proofs.Simulation
import Interpose.Proofs.SplitConstructors
import Interpose.Proofs.StackDepths
import Interpose.Proofs.StandingLines
import Interpose.Proofs.StubDepths
import Interpose.Proofs.StubRuns
import Interpose.Proofs.Stubs
import Interpose.Proofs.SuperCalls
import Interpose.Proofs.SuperclassInitialization
import Interpose.Proofs.Tables
import Interpose.Proofs.Transformations
import Interpose.Proofs.TypeNames
import Interpose.Proofs.Verification
import Interpose.Proofs.VerifiedCode
import Interpose.Proofs.VerifiedConstructors
import Interpose.Proofs.VerifiedStubs
import Interpose.Proofs.Views
import Interpose.Proofs.Walks
import Interpose.Proofs.WellFormedCode
import Interpose.Proofs.WranglerResets
import Interpose.Report
import Interpose.Session
import Interpose.Text.Quoted
import Interpose.Text.Split
import Interpose.Text.Unprintable
import Interpose.Text.Upper
import Interpose.Toml.Document
import Interpose.Toml.Parser
import Interpose.Toml.Printer
import Interpose.Toml.Quoted
import Interpose.Toml.Scalar
import Interpose.Value.Arithmetic
import Interpose.Value.Basic
import Interpose.Value.Binary64
import Interpose.Value.Outline
import Interpose.Value.Text
import Interpose.Verifier
