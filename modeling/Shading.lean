import Shading.Main
import Shading.Proofs.Attempts
import Shading.Proofs.BindingConflicts
import Shading.Proofs.BlockComments
import Shading.Proofs.FunctionUsage
import Shading.Proofs.Grammar
import Shading.Proofs.HintedExpressions
import Shading.Proofs.ImpliedParameters
import Shading.Proofs.IntegerTexts
import Shading.Proofs.MarkupTags
import Shading.Proofs.Nesting
import Shading.Proofs.NumberGrammar
import Shading.Proofs.PlacedReports
import Shading.Proofs.PrintedInterface
import Shading.Proofs.RoundTrip
import Shading.Proofs.SourceMaps
import Shading.Proofs.StrayComments
import Shading.Proofs.StructRounds
import Shading.Proofs.Swizzles
import Shading.Proofs.Termination
import Shading.Proofs.UndefinedNames
import Shading.Proofs.Underlines
import Shading.Proofs.Walks
