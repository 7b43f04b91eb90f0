import NominalTypes.Catalog.History
import NominalTypes.Catalog.Owners
import NominalTypes.Catalog.Passes
import NominalTypes.Catalog.Standard
import NominalTypes.Grammar.Cursor
import NominalTypes.Grammar.Derivation
import NominalTypes.Grammar.QualifiedName
import NominalTypes.Grammar.Tokenization
import NominalTypes.Hierarchy.Assignability
import NominalTypes.Hierarchy.Mentions
import NominalTypes.Hierarchy.Paths
import NominalTypes.Hierarchy.Supertype
import NominalTypes.Hierarchy.Worklist
import NominalTypes.Proofs.Catalog.Declarations
import NominalTypes.Proofs.Catalog.Extension
import NominalTypes.Proofs.Catalog.Linking
import NominalTypes.Proofs.Catalog.Order
import NominalTypes.Proofs.Catalog.Outline
import NominalTypes.Proofs.Catalog.Owners
import NominalTypes.Proofs.Catalog.Passes
import NominalTypes.Proofs.Catalog.StoredTypes
import NominalTypes.Proofs.Grammar.Blanks
import NominalTypes.Proofs.Grammar.Completeness
import NominalTypes.Proofs.Grammar.CursorLoops
import NominalTypes.Proofs.Grammar.CursorRuns
import NominalTypes.Proofs.Grammar.Denotable
import NominalTypes.Proofs.Grammar.Languages
import NominalTypes.Proofs.Grammar.Lexing
import NominalTypes.Proofs.Grammar.Lookahead
import NominalTypes.Proofs.Grammar.Names
import NominalTypes.Proofs.Grammar.NestedSpellings
import NominalTypes.Proofs.Grammar.Places
import NominalTypes.Proofs.Grammar.Printed
import NominalTypes.Proofs.Grammar.Progress
import NominalTypes.Proofs.Grammar.QualifiedNames
import NominalTypes.Proofs.Grammar.Reading
import NominalTypes.Proofs.Grammar.Repetition
import NominalTypes.Proofs.Grammar.RoundTrip
import NominalTypes.Proofs.Grammar.Shape
import NominalTypes.Proofs.Grammar.SimpleNames
import NominalTypes.Proofs.Grammar.SimpleRoundTrip
import NominalTypes.Proofs.Grammar.Soundness
import NominalTypes.Proofs.Grammar.SyntaxErrors
import NominalTypes.Proofs.Grammar.Trees
import NominalTypes.Proofs.Grammar.UnqualifiedRoundTrip
import NominalTypes.Proofs.Grammar.Writing
import NominalTypes.Proofs.Hierarchy.AncestorSearch
import NominalTypes.Proofs.Hierarchy.CanonicalForms
import NominalTypes.Proofs.Hierarchy.ClassOrder
import NominalTypes.Proofs.Hierarchy.Comparison
import NominalTypes.Proofs.Hierarchy.Conservation
import NominalTypes.Proofs.Hierarchy.Containment
import NominalTypes.Proofs.Hierarchy.ErasedComparison
import NominalTypes.Proofs.Hierarchy.Guardedness
import NominalTypes.Proofs.Hierarchy.Instantiation
import NominalTypes.Proofs.Hierarchy.Recurrence
import NominalTypes.Proofs.Hierarchy.Resolution
import NominalTypes.Proofs.Hierarchy.ResolvedExpressions
import NominalTypes.Proofs.Hierarchy.ResolvedSupertype
import NominalTypes.Proofs.Hierarchy.Search
import NominalTypes.Proofs.Hierarchy.SearchDepth
import NominalTypes.Proofs.Hierarchy.TopType
import NominalTypes.Proofs.Hierarchy.WellFormedness
import NominalTypes.Proofs.Rounds
import NominalTypes.Proofs.Sequencing
import NominalTypes.Proofs.Ty.Canonical
import NominalTypes.Proofs.Ty.Composition
import NominalTypes.Proofs.Ty.Erasure
import NominalTypes.Proofs.Ty.FirstOccurrences
import NominalTypes.Proofs.Ty.Printing
import NominalTypes.Proofs.Ty.Substitution
import NominalTypes.Proofs.Ty.Variables
import NominalTypes.Proofs.Ty.WellFormed
import NominalTypes.Proofs.TypeToken.Canonicity
import NominalTypes.Proofs.TypeToken.Concreteness
import NominalTypes.Ty.Parts
import NominalTypes.Ty.Traversal
import NominalTypes.Ty.Visitor
import NominalTypes.TypeToken.Collections
import NominalTypes.TypeToken.History
