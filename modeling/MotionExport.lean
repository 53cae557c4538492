import MotionExport.Conversion
import MotionExport.Linear.Model
import MotionExport.Proofs.Artifact.DumpRoundTrip
import MotionExport.Proofs.Artifact.ReportQuantities
import MotionExport.Proofs.Code.OutputFreshness
import MotionExport.Proofs.Code.OutputOrder
import MotionExport.Proofs.Code.SteadyAuxiliaries
import MotionExport.Proofs.Code.StrippedValues
import MotionExport.Proofs.Conversion.Atomicity
import MotionExport.Proofs.Export.DynamicsTiling
import MotionExport.Proofs.Export.MatrixPartition
import MotionExport.Proofs.Export.MissingMarker
import MotionExport.Proofs.Export.MissingOutputs
import MotionExport.Proofs.Export.ParameterNames
import MotionExport.Proofs.Export.Routing
import MotionExport.Proofs.Export.TerminatedLog
import MotionExport.Proofs.Model.AssemblyOutcome
import MotionExport.Proofs.Model.OutputResolution
import MotionExport.Text.Blank
import MotionExport.Proofs.Latex.PublishedLines
import MotionExport.Proofs.Export.Locality
import MotionExport.Proofs.Export.ReadAlike
import MotionExport.Proofs.Export.Rewrapping
import MotionExport.Proofs.Export.SectionOrder
import MotionExport.Proofs.Export.RecognisedLines
import MotionExport.Proofs.Artifact.Decomposition
import MotionExport.Proofs.Code.BuiltinSlots
import MotionExport.Proofs.Expression.Rescanning
import MotionExport.Proofs.Expression.TokenRewriting
import MotionExport.Proofs.Expression.TokenRules
import MotionExport.Proofs.Code.LinearRewriting
import MotionExport.Proofs.Code.MatrixCells
import MotionExport.Proofs.Code.ParameterMap
import MotionExport.Proofs.Latex.SeparateTerms
import MotionExport.Proofs.Code.LocalArrays
import MotionExport.Proofs.Expression.NameReading
import MotionExport.Proofs.Code.LanguageAgreement
import MotionExport.Proofs.Export.DeclaredNames
import MotionExport.Proofs.Export.AuxiliarySize
import MotionExport.Proofs.Linear.ScriptCells
import MotionExport.Proofs.Export.UnfinishedPlace
import MotionExport.Proofs.Export.DeclarationWrapping
import MotionExport.Proofs.Latex.Exponents
import MotionExport.Proofs.Linear.Dimensions
import MotionExport.Proofs.Export.CursorRuns
import MotionExport.Proofs.Export.StatementLines
import MotionExport.Proofs.Expression.TokenForms
