import SourceInventory.Tool
import SourceInventory.Setting
import SourceInventory.Proofs.Extract.Declarations
import SourceInventory.Proofs.Extract.ClassDeclaration
import SourceInventory.Proofs.Extract.ExportPass
import SourceInventory.Proofs.Json.Search
import SourceInventory.Proofs.Manifest.Mention
import SourceInventory.Proofs.FileTree.Read
import SourceInventory.Proofs.Locate.Search
import SourceInventory.Proofs.Locate.Ancestor
import SourceInventory.Proofs.Json.LongInteger
import SourceInventory.Proofs.Locate.Interruption
import SourceInventory.Proofs.Extract.ImportStatement
import SourceInventory.Proofs.Extract.ClassBody
import SourceInventory.Proofs.Extract.Method
import SourceInventory.Proofs.Extract.ExportedClass
import SourceInventory.Proofs.Extract.Separation
import SourceInventory.Proofs.Extract.Symbols
import SourceInventory.Proofs.Analysis.Lines
import SourceInventory.Proofs.Pattern.Continuation
import SourceInventory.Proofs.Extract.AsyncWindow
import SourceInventory.Proofs.Text.Utf8
import SourceInventory.Proofs.Analysis.Outcome
import SourceInventory.Proofs.Json.Unescaped
import SourceInventory.Proofs.Tool.Call
import SourceInventory.Proofs.Tool.Agreement
import SourceInventory.Proofs.Tool.Precedence
import SourceInventory.Proofs.Text.WellFormed
import SourceInventory.Proofs.Analysis.Source
import SourceInventory.Proofs.Locate.Threshold
import SourceInventory.Proofs.FileTree.Update
import SourceInventory.Proofs.Locate.Consulted
import SourceInventory.Proofs.Json.Written
import SourceInventory.Proofs.Tool.Record
import SourceInventory.Proofs.Extract.BodyCut
import SourceInventory.Proofs.Extract.Hit
import SourceInventory.Proofs.Manifest.Rewritten
import SourceInventory.Proofs.Analysis.Suited
import SourceInventory.Proofs.Extract.AsyncOpening
import SourceInventory.Proofs.Extract.ClassHeader
import SourceInventory.Proofs.Extract.CapturedList
import SourceInventory.Proofs.Extract.AnnotatedExports
import SourceInventory.Proofs.Extract.DistinctStarts
import SourceInventory.Proofs.Extract.WholeName
import SourceInventory.Proofs.Extract.ClauseForm
import SourceInventory.Proofs.Extract.StatementHeader
import SourceInventory.Proofs.Analysis.Override
import SourceInventory.Proofs.FileTree.Removal
import SourceInventory.Proofs.Locate.Broken
import SourceInventory.Proofs.Extract.ImportLine
import SourceInventory.Proofs.Extract.WellFormedSymbol
import SourceInventory.Proofs.Path.Upwards
import SourceInventory.Proofs.Tool.Lookup
import SourceInventory.Proofs.Setting.Number
