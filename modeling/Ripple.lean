import Ripple.Main
import Ripple.Proofs.Analysis.Events
import Ripple.Proofs.Analysis.Failures
import Ripple.Proofs.Analysis.Growth
import Ripple.Proofs.Analysis.LineEnds
import Ripple.Proofs.Analysis.Precheck
import Ripple.Proofs.Analysis.Scheduling
import Ripple.Proofs.Analysis.Usages
import Ripple.Proofs.Files.Listing
import Ripple.Proofs.Language.Literals
import Ripple.Proofs.Language.MemberImports
import Ripple.Proofs.Language.Placement
import Ripple.Proofs.Language.UsePaths
import Ripple.Proofs.Files.Ignoring
import Ripple.Proofs.Output.Reading
import Ripple.Proofs.Output.Reports
import Ripple.Proofs.Command.Answers
import Ripple.Proofs.Language.ExportNames
import Ripple.Proofs.Analysis.ExportUses
import Ripple.Proofs.Language.Registration
import Ripple.Proofs.Regex.Joining
import Ripple.Proofs.Language.ExportLines
import Ripple.Proofs.Language.Keywords
import Ripple.Proofs.Language.PythonDeclarations
import Ripple.Proofs.Language.ExportForms
import Ripple.Proofs.Language.ImportUnion
import Ripple.Proofs.Regex.Finding
import Ripple.Proofs.Language.Rows
import Ripple.Proofs.Analysis.ImportStatements
import Ripple.Proofs.Language.GroupedImports
import Ripple.Proofs.Language.GroupedDeclarations
import Ripple.Proofs.Language.ExportOrder
import Ripple.Proofs.Language.DeclarationBlocks
import Ripple.Proofs.Language.ExportLists
import Ripple.Proofs.Language.SingleDeclarations
import Ripple.Proofs.Language.StringConstants
import Ripple.Proofs.Analysis.Advice
import Ripple.Proofs.Language.ImportSets
import Ripple.Proofs.Language.LiteralNames
import Ripple.Proofs.Text.LineNumbers
