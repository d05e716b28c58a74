import ValueClass.Main
import ValueClass.Declaration.Printer
import ValueClass.Instance.Equality
import ValueClass.Instance.Hash
import ValueClass.Proofs.EqualHash
import ValueClass.Proofs.Equivalence
import ValueClass.Proofs.Evaluation
import ValueClass.Proofs.HashCode
import ValueClass.Proofs.Equals
import ValueClass.Proofs.Pieces
import ValueClass.Proofs.Legible
import ValueClass.Proofs.RoundTrip
import ValueClass.Proofs.Rereading
import ValueClass.Proofs.Nesting
import ValueClass.Proofs.Layer
import ValueClass.Proofs.Spelling
import ValueClass.Proofs.ClassName
import ValueClass.Proofs.Ownership
import ValueClass.Proofs.Renaming
import ValueClass.Proofs.TypeNames
import ValueClass.Proofs.LibraryNames
import ValueClass.Proofs.NormalForm
import ValueClass.Proofs.Brackets
import ValueClass.Proofs.Blocks
import ValueClass.Proofs.Volume
import ValueClass.Proofs.Layout
import ValueClass.Proofs.Generation
import ValueClass.Proofs.Check
import ValueClass.Proofs.Confinement
import ValueClass.Proofs.Inert
import ValueClass.Proofs.Comments
import ValueClass.Proofs.Inventory
import ValueClass.Proofs.Repetition
import ValueClass.Proofs.Canonical
import ValueClass.Proofs.Discovery
import ValueClass.Proofs.OneChange
import ValueClass.Proofs.ClosedForm
import ValueClass.Proofs.Imports
import ValueClass.Proofs.Misfit
import ValueClass.Proofs.FieldOrder
import ValueClass.Proofs.Lines
import ValueClass.Proofs.Precedence
import ValueClass.Proofs.Interruption
import ValueClass.Proofs.Placement
import ValueClass.Proofs.TopLevel
import ValueClass.Proofs.Patterns
import ValueClass.Proofs.Search
import ValueClass.Proofs.ExpressionReader
import ValueClass.Proofs.MethodReader
