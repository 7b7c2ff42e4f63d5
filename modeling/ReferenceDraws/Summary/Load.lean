import ReferenceDraws.Files.Tree
import ReferenceDraws.Summary.Table

/-!
# Loading a summary

The summary of a sampler as a file.
-/

namespace ReferenceDraws.SummaryTable

/-- The failure of a summary file that cannot be opened, or that opens and has no contents to
read a header from. -/
def fileFailure (code : String) (fault : FileTree.Fault) : Failure :=
  ⟨.input, .new code fault.message⟩

/-- The table in a file; a directory opens and then has no header. -/
def loadBare (t : FileTree) (path : String) : Except Failure SummaryTable := do
  match ← (t.openPath path).mapError (fileFailure "pdbref_diag.summary_open") with
  | some bytes => ofCsv bytes
  | none => throw (fileFailure "pdbref_diag.summary_header" .isADirectory)

/-- Loads the summary of a sampler; a failure names the file. -/
def load (t : FileTree) (path : String) : Except Failure SummaryTable :=
  (loadBare t path).mapError (Failure.addContextIf .input "path" path)

end ReferenceDraws.SummaryTable
