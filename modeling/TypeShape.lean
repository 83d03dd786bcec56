import TypeShape.Catalog.Loading
import TypeShape.Session
import TypeShape.Settings.Loading
import TypeShape.Proofs.Resolver.Congruence
import TypeShape.Proofs.Resolver.DepthLimit
import TypeShape.Proofs.Resolver.CycleGuard
import TypeShape.Proofs.TypeExpr.Outline
import TypeShape.Proofs.TypeExpr.Reading
import TypeShape.Proofs.TypeExpr.Grammar
import TypeShape.Proofs.TypeExpr.Substitution
import TypeShape.Proofs.Resolver.Consultation
import TypeShape.Proofs.Resolver.Invariant
import TypeShape.Proofs.Resolver.ReadBack
import TypeShape.Proofs.Resolver.Monomorphic
import TypeShape.Proofs.Resolver.Lookup
import TypeShape.Proofs.Resolver.Pruning
import TypeShape.Proofs.Resolver.UnknownPolicy
import TypeShape.Proofs.Resolver.FieldTypes
import TypeShape.Proofs.Text.Literal
import TypeShape.Proofs.Shape.WrittenForm
import TypeShape.Proofs.Run.History
import TypeShape.Proofs.Resolver.LeafOrigin
import TypeShape.Proofs.Resolver.Questioning
import TypeShape.Proofs.Resolver.QuestionOrder
import TypeShape.Proofs.Resolver.FaultOrigin
import TypeShape.Proofs.Shape.OpenWalk
import TypeShape.Proofs.Shape.GatedWalk
import TypeShape.Proofs.Shape.Nesting
import TypeShape.Proofs.Shape.FailingCall
import TypeShape.Proofs.Shape.ClosedGates
import TypeShape.Proofs.Resolver.FieldOrder
import TypeShape.Proofs.Resolver.FramePath
import TypeShape.Proofs.Resolver.GuardState
import TypeShape.Proofs.Resolver.DepthBound
import TypeShape.Proofs.Resolver.FieldExtraction
import TypeShape.Proofs.Shape.Alike
import TypeShape.Proofs.Resolver.Roots
import TypeShape.Proofs.Resolver.ArrayLevels
import TypeShape.Proofs.TypeExpr.Skeleton
import TypeShape.Proofs.TypeExpr.SquareBrackets
import TypeShape.Proofs.Shape.SortedFields
import TypeShape.Proofs.Resolver.AccessorPairs
import TypeShape.Proofs.Document.TokenEnd
import TypeShape.Proofs.Document.FirstValue
import TypeShape.Proofs.Document.Spelling
import TypeShape.Proofs.Document.Numerals
import TypeShape.Proofs.Document.Writing
import TypeShape.Proofs.Catalog.Clauses
import TypeShape.Proofs.Catalog.Description
import TypeShape.Proofs.TypeExpr.TopLevel
import TypeShape.Proofs.Session.RegisteredNames
import TypeShape.Proofs.Settings.Overriding
import TypeShape.Proofs.Resolver.Threading
