import ReferenceDraws.OrderedMap
import ReferenceDraws.SortedMap
import ReferenceDraws.Text.Utf8
import ReferenceDraws.Text.Quoted
import ReferenceDraws.Double.Written
import ReferenceDraws.Json.Decode
import ReferenceDraws.Failure
import ReferenceDraws.RunConfig.Basic
import ReferenceDraws.Provenance
import ReferenceDraws.ParameterName
import ReferenceDraws.Draws.Assembly
import ReferenceDraws.Diagnostics.QualityChecks
import ReferenceDraws.Zip.Archive
import ReferenceDraws.Main
import ReferenceDraws.Proofs.Draws.Assembly
import ReferenceDraws.Proofs.Draws.MissingVariables
import ReferenceDraws.Proofs.Reference.Alignment
import ReferenceDraws.Proofs.Artifact.DrawsArchive
import ReferenceDraws.Proofs.CommandLine.Generate
import ReferenceDraws.Proofs.CommandLine.CrossCheck
import ReferenceDraws.Proofs.Artifact.Sequence
import ReferenceDraws.Proofs.CommandLine.Numbers
import ReferenceDraws.Proofs.Reference.Verdict
import ReferenceDraws.Proofs.ParameterName
import ReferenceDraws.Proofs.Draws.Partition
import ReferenceDraws.Proofs.Draws.DrawMatrix
import ReferenceDraws.Proofs.Draws.Elements
import ReferenceDraws.Proofs.Summary.Columns
import ReferenceDraws.Proofs.Reference.Log
import ReferenceDraws.Proofs.Failure
import ReferenceDraws.Proofs.Draws.Access
