import TypeCatalog.Json.Reader
import TypeCatalog.Main
import TypeCatalog.Proofs.BaseCuts
import TypeCatalog.Proofs.ClassIndex
import TypeCatalog.Proofs.Collecting
import TypeCatalog.Proofs.Lineages
import TypeCatalog.Proofs.Overrides
import TypeCatalog.Proofs.ClassSites
import TypeCatalog.Proofs.Sites
import TypeCatalog.Proofs.Walks
import TypeCatalog.Proofs.Enumeration
import TypeCatalog.Proofs.RecordComposition
import TypeCatalog.Proofs.ScopedNames
import TypeCatalog.Proofs.InheritedAttributes
import TypeCatalog.Proofs.ScopeAgreement
import TypeCatalog.Proofs.ModuleClasses
import TypeCatalog.Proofs.IndexAgreement
import TypeCatalog.Proofs.ModuleOrder
import TypeCatalog.Proofs.Digits
import TypeCatalog.Proofs.Rounding
import TypeCatalog.Proofs.ShortestDecimal
import TypeCatalog.Proofs.DecimalText
import TypeCatalog.Proofs.JsonText
import TypeCatalog.Proofs.SameValues
import TypeCatalog.Proofs.LiteralRecords
import TypeCatalog.Proofs.RecordSchema
import TypeCatalog.Proofs.RecordValidation
import TypeCatalog.Proofs.NullableTypes
import TypeCatalog.Proofs.ImportTables
import TypeCatalog.Proofs.ExecutableModules
import TypeCatalog.Proofs.ModuleNames
import TypeCatalog.Proofs.RelativeImports
import TypeCatalog.Proofs.TokenTexts
import TypeCatalog.Proofs.ParserWidths
import TypeCatalog.Proofs.ExpressionWidths
import TypeCatalog.Proofs.LiteralWidths
import TypeCatalog.Proofs.QuotedTypes
import TypeCatalog.Proofs.UnlocatedSymbols
import TypeCatalog.Proofs.UnplacedExpressions
import TypeCatalog.Proofs.BareClasses
import TypeCatalog.Proofs.ClassVariables
import TypeCatalog.Proofs.Interfaces
import TypeCatalog.Proofs.QuotedFields
import TypeCatalog.Proofs.TreeSources
import TypeCatalog.Proofs.ModuleTwins
import TypeCatalog.Proofs.WorkerPools
import TypeCatalog.Proofs.LoadedPrograms
import TypeCatalog.Proofs.StandardJson
import TypeCatalog.Proofs.FileWrites
import TypeCatalog.Proofs.EmittedLines
import TypeCatalog.Proofs.Extractions
import TypeCatalog.Proofs.StandardLines
import TypeCatalog.Proofs.TypeForms
import TypeCatalog.Proofs.Derivations
import TypeCatalog.Proofs.IndexHistories
import TypeCatalog.Proofs.HiddenClasses
import TypeCatalog.Proofs.CommandAgreement
import TypeCatalog.Proofs.ClassBodies
import TypeCatalog.Proofs.NamedSources
import TypeCatalog.Proofs.MemberNodes
import TypeCatalog.Proofs.ReservedWords
import TypeCatalog.Proofs.WellFormedTypes
import TypeCatalog.Proofs.UnionChains
import TypeCatalog.Proofs.EffectiveMembers
import TypeCatalog.Proofs.InstantiationRecords
import TypeCatalog.Proofs.SchemaKeywords
import TypeCatalog.Proofs.ValidationFaults
import TypeCatalog.Proofs.DecoratorLookups
import TypeCatalog.Proofs.GatheredOutcomes
import TypeCatalog.Proofs.ArgumentPositions
import TypeCatalog.Proofs.TokenLayouts
import TypeCatalog.Proofs.ParserLayouts
import TypeCatalog.Proofs.ExpressionLayouts
import TypeCatalog.Proofs.ImportLayouts
import TypeCatalog.Proofs.StatementLayouts
import TypeCatalog.Proofs.ImportSpellings
import TypeCatalog.Proofs.AddedTypes
import TypeCatalog.Proofs.SettingsOutcomes
import TypeCatalog.Proofs.DistinctDisplays
import TypeCatalog.Proofs.StableRenderings
import TypeCatalog.Proofs.ParserTexts
import TypeCatalog.Proofs.ExpressionTexts
import TypeCatalog.Proofs.StatementParts
import TypeCatalog.Proofs.TypeExpressions
import TypeCatalog.Proofs.TypeRecursion
