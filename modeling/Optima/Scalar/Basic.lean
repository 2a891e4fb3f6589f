import Optima.Decimal

namespace Optima

/-!
# Numbers

Every algorithm of the library is written once, over a type of numbers that is
left open.  It runs on double precision numbers; statements about it are made
for any numbers, exact ones included, so the operations below are all that an
algorithm may ask of a number.

Comparison is that of a numeric type with a value that is not a number: such a
value is neither below, nor equal to, nor above anything.  The choices that
depend on it (`larger`, `smaller`, `peak`) are therefore spelled out here.
-/

/-- The operations that the algorithms need of a number. -/
class Scalar (α : Type) extends
    Zero α, One α, Add α, Sub α, Mul α, Div α, Neg α, LT α, LE α, BEq α where
  /-- Being strictly below is decidable. -/
  decidableLess : DecidableLT α
  /-- Being at most is decidable. -/
  decidableAtMost : DecidableLE α
  /-- The number of an integer. -/
  ofInt : Int → α
  /-- `decimal m e` is the number `m` divided by ten to the power `e`. -/
  decimal : Nat → Nat → α
  /-- The number nearest to a fraction. -/
  ofRat : Rat → α
  /-- The fraction that a finite number is. -/
  toRat? : α → Option Rat
  /-- The number above every finite one. -/
  infinity : α
  /-- Distance to zero. -/
  magnitude : α → α
  /-- The largest whole number that is not above. -/
  floor : α → α
  /-- The smallest whole number that is not below. -/
  ceiling : α → α
  /-- The nearest whole number, the even one of two. -/
  nearest : α → α
  /-- Raising to a power. -/
  power : α → α → α
  /-- Neither a finite number nor an infinity. -/
  isNaN : α → Bool
  /-- A number, and not an infinite one. -/
  isFinite : α → Bool

attribute [reducible] Scalar.decidableLess Scalar.decidableAtMost
attribute [instance] Scalar.decidableLess Scalar.decidableAtMost

/-- The functions of plane geometry that distances are computed with. -/
class Elementary (α : Type) where
  squareRoot : α → α
  sine : α → α
  cosine : α → α
  arcsine : α → α
  /-- Half the circumference of the unit circle. -/
  halfTurn : α

namespace Scalar

variable {α : Type} [Scalar α]

/-- The second number where it is above the first, else the first. -/
def larger (first second : α) : α :=
  if first < second then second else first

/-- The second number where it is below the first, else the first. -/
def smaller (first second : α) : α :=
  if second < first then second else first

/-- The sum from left to right. -/
def total (numbers : List α) : α :=
  numbers.foldl (· + ·) 0

/-- The first of the largest numbers of a list. -/
def largest? : List α → Option α
  | [] => none
  | first :: rest => some (rest.foldl larger first)

/-- The first of the smallest numbers of a list. -/
def smallest? : List α → Option α
  | [] => none
  | first :: rest => some (rest.foldl smaller first)

/-- Whether two numbers are the same; what is not a number is the same as itself. -/
def same (first second : α) : Bool :=
  first == second || (isNaN first && isNaN second)

/-- The larger of two numbers, or the one that is not a number. -/
def peak (first second : α) : α :=
  if isNaN first then first else if isNaN second then second else larger first second

/-- The smaller of two numbers, or the one that is not a number. -/
def trough (first second : α) : α :=
  if isNaN first then first else if isNaN second then second else smaller first second

/-- Move a number into an interval, first up to its lower end and then down to its upper one. -/
def clip (value lower upper : α) : α :=
  trough (peak value lower) upper

/-- Whether a number lies between two others, the ends included. -/
def within (value lower upper : α) : Bool :=
  lower ≤ value && value ≤ upper

/-- The number two. -/
def two : α := ofInt 2

/-- The number of a truth value: one where it holds, else zero. -/
def indicator (holds : Bool) : α :=
  if holds then 1 else 0

/-- The smallest difference that timing and routing tell apart. -/
def slack : α := decimal 1 9

end Scalar

/-!
## Ordering numbers

Positions of a list put in order of their numbers, and the extremes of a list in
which what is not a number outweighs everything.
-/

namespace Scalar

variable {α : Type} [Scalar α]

/-- The order of numbers in which what is not a number comes last. -/
def inOrder (first second : α) : Bool :=
  if isNaN first then isNaN second
  else isNaN second || first ≤ second

/-- The positions of a list of numbers in ascending order of the numbers, ties as they stand. -/
def ascending (numbers : List α) : List Nat :=
  (numbers.zipIdx.mergeSort fun first second => inOrder first.1 second.1).map (·.2)

/-- The positions of a list of numbers in descending order of the numbers, ties as they stand. -/
def descending (numbers : List α) : List Nat :=
  ascending (numbers.map (-·))

/-- Whether a number takes the place of the largest one so far. -/
def outweighs (challenger champion : α) : Bool :=
  !isNaN champion && (isNaN challenger || champion < challenger)

/-- The position of the first of the largest numbers of a list. -/
def positionOfLargest (numbers : List α) : Nat :=
  match numbers.zipIdx with
  | [] => 0
  | first :: rest =>
    (rest.foldl (fun best entry => if outweighs entry.1 best.1 then entry else best) first).2

/-- The position of the first of the smallest numbers of a list. -/
def positionOfSmallest (numbers : List α) : Nat :=
  positionOfLargest (numbers.map (-·))

/-- The ends of the range of a list of numbers. -/
def range? : List α → Option (α × α)
  | [] => none
  | first :: rest => some (rest.foldl trough first, rest.foldl peak first)

/-- Insert a number into a strictly ascending list; a number that is there already is dropped. -/
def insertDistinct (value : α) : List α → List α
  | [] => [value]
  | first :: rest =>
    if value < first then value :: first :: rest
    else if value == first then first :: rest
    else first :: insertDistinct value rest

/-- The distinct numbers of a list in ascending order. -/
def distinct (numbers : List α) : List α :=
  numbers.foldl (fun sorted value => insertDistinct value sorted) []

end Scalar

/-!
## Double precision numbers

The numbers that the library runs on.  Whole numbers come out of `floor` and
`ceiling` with one zero, the positive one; `nearest` keeps the sign of a zero.
-/

namespace Double

/-- The nearest whole number, the even one of two. -/
def nearest (value : Float) : Float :=
  if value - value.floor == 0.5 then 2 * (value / 2).round else value.round

end Double

instance : Scalar Float where
  zero := 0
  one := 1
  decidableLess := inferInstance
  decidableAtMost := inferInstance
  ofInt := Float.ofInt
  decimal numerator places := Float.ofScientific numerator true places
  ofRat := Binary.floatOfRat
  toRat? value := (Binary.ofFloat? value).map Binary.toRat
  infinity := 1 / 0
  magnitude := Float.abs
  floor value := value.floor + 0
  ceiling value := value.ceil + 0
  nearest := Double.nearest
  power := Float.pow
  isNaN := Float.isNaN
  isFinite := Float.isFinite

instance : Elementary Float where
  squareRoot := Float.sqrt
  sine := Float.sin
  cosine := Float.cos
  arcsine := Float.asin
  halfTurn := 3.141592653589793

end Optima
