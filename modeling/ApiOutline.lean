import ApiOutline.Document.Session
import ApiOutline.Main
import ApiOutline.Proofs.Numbering
import ApiOutline.Proofs.Balance
import ApiOutline.Proofs.Placeholder
import ApiOutline.Proofs.Reading
import ApiOutline.Proofs.Resolution
import ApiOutline.Proofs.Denotation
import ApiOutline.Proofs.Lookup
import ApiOutline.Proofs.Reentry
import ApiOutline.Proofs.Placement
import ApiOutline.Proofs.TemplateKey
import ApiOutline.Proofs.WrittenOperation
import ApiOutline.Proofs.Store
import ApiOutline.Proofs.RouteLookup
import ApiOutline.Proofs.EditedParts
import ApiOutline.Proofs.Declaration
import ApiOutline.Proofs.PathParameters
import ApiOutline.Proofs.DistinctParameters
import ApiOutline.Proofs.Heap
import ApiOutline.Proofs.HeapPrograms
import ApiOutline.Proofs.HeapSession
import ApiOutline.Proofs.HeapRuns
import ApiOutline.Proofs.Handles
import ApiOutline.Proofs.Refusal
import ApiOutline.Proofs.TemplateDefaults
import ApiOutline.Proofs.InPlace
import ApiOutline.Proofs.Registration
import ApiOutline.Proofs.RouteOrder
import ApiOutline.Proofs.Acceptance
import ApiOutline.Proofs.Demands
import ApiOutline.Proofs.Shorthand
import ApiOutline.Proofs.StoredKeys
import ApiOutline.Proofs.NodeEquality
import ApiOutline.Proofs.NodeForm
import ApiOutline.Proofs.JsonText
import ApiOutline.Proofs.NumberText
import ApiOutline.Proofs.JsonPrinting
import ApiOutline.Proofs.FiniteParts
import ApiOutline.Proofs.FiniteExamples
import ApiOutline.Proofs.Replacement
import ApiOutline.Proofs.Merge
import ApiOutline.Proofs.RegisterAgain
import ApiOutline.Proofs.TextDefaults
import ApiOutline.Proofs.TemplateSegments
import ApiOutline.Proofs.Removal
import ApiOutline.Proofs.Binary64Value
import ApiOutline.Proofs.ValueEquality
import ApiOutline.Proofs.ExactNodes
import ApiOutline.Proofs.DistinctItems
import ApiOutline.Proofs.ArrayOutlines
import ApiOutline.Proofs.Numeral
import ApiOutline.Proofs.Rounding
import ApiOutline.Proofs.BodyBlanks
import ApiOutline.Proofs.DefinitionRoundTrip
import ApiOutline.Proofs.NumericDefaults
import ApiOutline.Proofs.Expansion
