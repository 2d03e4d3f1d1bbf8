import BoxedValues.Machine.Inspect
import BoxedValues.Main
import BoxedValues.Proofs.Literal.Refusing
import BoxedValues.Proofs.Literal.Writing
import BoxedValues.Proofs.Machine.Descending
import BoxedValues.Proofs.Machine.Releasing
import BoxedValues.Proofs.Text.PathRendering
import BoxedValues.Proofs.Heap.Shape
import BoxedValues.Proofs.Machine.Coupling
import BoxedValues.Proofs.Machine.Shapes
import BoxedValues.Proofs.Heap.Plain
import BoxedValues.Proofs.Machine.Operations
import BoxedValues.Proofs.Machine.Sessions
import BoxedValues.Proofs.Machine.Visiting
import BoxedValues.Proofs.Machine.Sparing
import BoxedValues.Proofs.Machine.Assembling
import BoxedValues.Proofs.Machine.Printing
import BoxedValues.Proofs.CommandLine.Answering
import BoxedValues.Proofs.Machine.Classifying
import BoxedValues.Proofs.Literal.Tiling
import BoxedValues.Proofs.Machine.Deduping
import BoxedValues.Proofs.Machine.Singletons
import BoxedValues.Proofs.Equality.ShortCuts
import BoxedValues.Proofs.Text.Showing
import BoxedValues.Proofs.Machine.Selecting
import BoxedValues.Proofs.Double.FixedText
import BoxedValues.Proofs.Literal.Separating
import BoxedValues.Proofs.Numeral.Parsing
import BoxedValues.Proofs.Text.Joining
import BoxedValues.Proofs.Double.Rereading
import BoxedValues.Proofs.Text.Padding
import BoxedValues.Proofs.Table.Registering
import BoxedValues.Proofs.Machine.Appending
