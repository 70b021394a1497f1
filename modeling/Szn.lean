import Szn.Library.Casts
import Szn.Library.Simulation
import Szn.Spec.Serialize
import Szn.Spec.Deserialize
import Szn.Properties.Sources
import Szn.Spec.Parse
import Szn.Spec.RoundTrip
import Szn.Model.ReaderWriter
import Szn.Properties.RoundTrip
import Szn.Properties.SelfDelimiting
import Szn.Spec.Canonical
import Szn.Properties.Canonical
import Szn.Properties.LengthPrefix
import Szn.Model.Sizes
import Szn.Properties.IteratorSink
import Szn.Properties.Sizes
import Szn.Library.Unrolling
import Szn.Model.Tree
import Szn.Properties.Tree
import Szn.Model.Iterator
import Szn.Properties.Iterator
import Szn.Properties.Integers
import Szn.Properties.StreamFailure
import Szn.Properties.Chunking
import Szn.Properties.DeclaredLength
import Szn.Library.SortedMap
import Szn.Model.Map
import Szn.Spec.Map
import Szn.Properties.Map
import Szn.Model.Nullable
import Szn.Properties.Nullable
import Szn.Properties.Traversal
import Szn.Library.Projection
import Szn.Properties.CountingSink
import Szn.Properties.RangeSafety
import Szn.Properties.EntryPoints
import Szn.Model.Bytes
import Szn.Properties.StringLiteral
import Szn.Properties.FixedSize
import Szn.Spec.InPlace
import Szn.Properties.Overread
import Szn.Library.Coupling
import Szn.Properties.Attempts
import Szn.Properties.FailingDevices
import Szn.Properties.Portability
import Szn.Properties.StreamExceptions
import Szn.Properties.StreamSink
import Szn.Properties.EncodedSize
import Szn.Library.Blocks
import Szn.Library.Recognizer
import Szn.Model.Convert
import Szn.Model.Zip
import Szn.Properties.Containers
import Szn.Properties.Convert
import Szn.Properties.Zip
import Szn.Library.SetContainer
import Szn.Model.Message
import Szn.Model.Pod
import Szn.Model.Sets
import Szn.Properties.FailedVector
import Szn.Properties.HostOrder
import Szn.Properties.Message
import Szn.Properties.Sets
import Szn.Properties.TreeRecords
import Szn.Properties.Retry
import Szn.Properties.Conversion
import Szn.Properties.FunctionSink
import Szn.Properties.Interchange
