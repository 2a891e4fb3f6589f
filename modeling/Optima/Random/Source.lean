import Optima.Failure
import Optima.Scalar.Basic

namespace Optima

/-!
# Random draws

The searches draw from a source of which only the three basic draws are known.
Everything else that is drawn is made of these.
-/

/-- A source of random draws. -/
class RandomSource (γ α : Type) where
  /-- A number from zero up to, but not including, one. -/
  unit : γ → α × γ
  /-- A natural number below a limit. -/
  below : Nat → γ → Nat × γ
  /-- A number that is distributed normally around zero with unit spread. -/
  normal : γ → α × γ

/-- A source of random draws that is made from a seed, or without one. -/
class SeededSource (γ α : Type) extends RandomSource γ α where
  ofSeed : Option Int → Except Breakdown γ

namespace RandomSource

variable {γ α : Type} [RandomSource γ α]

/-- Draws one after the other. -/
def repeated {β : Type} (draw : γ → β × γ) : Nat → γ → List β × γ
  | 0, source => ([], source)
  | count + 1, source =>
    let (first, afterFirst) := draw source
    let (others, rest) := repeated draw count afterFirst
    (first :: others, rest)

/-- Exchange two items of a list. -/
def exchange {β : Type} (items : List β) (first second : Nat) : List β :=
  match items[first]?, items[second]? with
  | some left, some right => (items.set first right).set second left
  | _, _ => items

variable (α) in
/-- Exchange each item with one that is not behind it, from a position down to the second. -/
def shuffleFrom {β : Type} : Nat → List β → γ → List β × γ
  | 0, items, source => (items, source)
  | last + 1, items, source =>
    let (chosen, rest) := below α (last + 2) source
    shuffleFrom last (exchange items (last + 1) chosen) rest

variable (α) in
/-- The items of a list in random order. -/
def shuffle {β : Type} (items : List β) (source : γ) : List β × γ :=
  shuffleFrom α (items.length - 1) items source

variable [Scalar α]

/-- A number between two others, for each of a list of intervals. -/
def uniform : List (α × α) → γ → List α × γ
  | [], source => ([], source)
  | interval :: rest, source =>
    let (share, afterShare) := unit source
    let (others, final) := uniform rest afterShare
    ((interval.1 + (interval.2 - interval.1) * share) :: others, final)

end RandomSource

/-!
## A mixing generator

A counter of sixty-four bits is advanced by a fixed odd step, and each draw is the
counter with its bits mixed.  A normal draw is the sum of twelve unit draws less
six.
-/

/-- The counter of the generator. -/
structure MixingGenerator where
  counter : UInt64
  deriving Repr, DecidableEq

namespace MixingGenerator

/-- The generator of a seed; without a seed the counter starts at zero. -/
def ofSeed (seed : Option Int) : Except Breakdown MixingGenerator :=
  let start := seed.getD 0
  if start < 0 then .error .negativeSeed
  else .ok ⟨UInt64.ofNat (start.toNat % Nat.pow 2 64)⟩

/-- The counter with its bits mixed. -/
def mix (counter : UInt64) : UInt64 :=
  let first := (counter ^^^ (counter >>> 30)) * 0xBF58476D1CE4E5B9
  let second := (first ^^^ (first >>> 27)) * 0x94D049BB133111EB
  second ^^^ (second >>> 31)

/-- The next sixty-four bits. -/
def next (generator : MixingGenerator) : UInt64 × MixingGenerator :=
  let advanced := generator.counter + 0x9E3779B97F4A7C15
  (mix advanced, ⟨advanced⟩)

/-- The next number from zero up to one, made of fifty-three bits. -/
def nextUnit (generator : MixingGenerator) : Float × MixingGenerator :=
  let (bits, advanced) := generator.next
  (Float.ofNat (bits >>> 11).toNat / 9007199254740992, advanced)

/-- The next natural number below a limit. -/
def nextBelow (limit : Nat) (generator : MixingGenerator) : Nat × MixingGenerator :=
  let (bits, advanced) := generator.next
  (bits.toNat % limit, advanced)

/-- The next normally distributed number. -/
def nextNormal (generator : MixingGenerator) : Float × MixingGenerator :=
  let (units, advanced) := RandomSource.repeated nextUnit 12 generator
  (Scalar.total units - 6, advanced)

instance : SeededSource MixingGenerator Float where
  ofSeed := ofSeed
  unit := nextUnit
  below := nextBelow
  normal := nextNormal

end MixingGenerator

end Optima
