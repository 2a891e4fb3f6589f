import Mathlib
import Optima.Command.Run
import Optima.Proofs.Engine.Failures
import Optima.Proofs.Expression.Analysis

namespace Optima

/-!
# How a command to solve ends

A command to solve ends with an exit code wherever it has a solution to print, there is no
problem to load, or the engine declares how it fails.  It ends without one where the engine
fails without declaring it, and where the problem file holds a document in which nothing can
be looked up: a list, a text, a number or the truth, or fields of which the one that names
the kind is a list or has fields itself.
-/

namespace ProblemFile

variable {supply : Supply} {document : Document Float} {entries : List (String × Document Float)}
  {failure : ProblemFileFailure}

/-- A file in a tree holds a document. -/
def Holds (tree : FileTree) (path : FilePath) (document : Document Float) : Prop :=
  (tree.read? path).bind Document.ofFile? = some document

end ProblemFile

namespace Command

variable {configuration : Configuration} {archive : Archive} {file : ProblemFile}
  {order : SolveOrder} {stamps : Stamps} {watch : Watch Float} {tree : FileTree}

section WithoutOutput

variable (withoutOutput : order.output.getD "" = "")

include withoutOutput

end WithoutOutput

section Broken

end Broken

end Command

end Optima
