import Optima.Proofs.Scalar.Extended
import Optima.Random.Source
import Optima.Routing.Solve

namespace Optima

/-!
# Runs on exact numbers

Searches run on exact numbers as well as on doubles.  This is what such runs are started with.
-/

/-!
## Exact draws

The mixing generator draws fractions as well as doubles: a unit draw has a power of two
as its denominator, so it is the same number for both.
-/

namespace MixingGenerator

/-- The next fraction from zero up to one. -/
def nextFraction (generator : MixingGenerator) : Extended × MixingGenerator :=
  let (bits, advanced) := generator.next
  (.finite (mkRat (bits >>> 11).toNat 9007199254740992), advanced)

/-- The next fraction around zero: the sum of twelve unit draws less six. -/
def nextCentered (generator : MixingGenerator) : Extended × MixingGenerator :=
  let (units, advanced) := RandomSource.repeated nextFraction 12 generator
  (Scalar.total units - .finite 6, advanced)

instance : SeededSource MixingGenerator Extended where
  ofSeed := ofSeed
  unit := nextFraction
  below := nextBelow
  normal := nextCentered

end MixingGenerator

/-!
## Routing with exact numbers

What runs of the search on exact numbers are started with.
-/

namespace Routing

/-- Parameters that leave local search room enough. -/
def plainParameters : RoutingParameters Extended where
  maxIterations := 10
  tolerance := 0
  timeLimit := none
  seed := none
  convergence := ⟨.objectiveChange, 0, 1⟩
  parallelization := ⟨false, 1, .masterSlave⟩
  defaultBounds := (0, 1)
  localSearch := true
  averageSpeed := 1

/-- A watch that never interrupts a search. -/
def quietWatch : Watch Extended :=
  .start (fun _ => 0) (fun _ => false)

end Routing

end Optima
