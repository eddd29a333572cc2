/-!
# Degrees

The degree to which an agent holds a formula, and the trust it places in another agent, are binary
floating-point numbers of 64 bits. The logic only ever compares them and picks one of two, so of a
number it matters where it stands in the order of all numbers.

* `Degree` – a number, or the mark for "not a number". A number is given by its sign and its *rank*,
  which counts the numbers between zero and it; the last rank is infinity.
* `Degree.le`, `Degree.lt` – the comparisons of numbers, false for what is not a number. The two
  zeros compare equal.
* `Degree.min`, `Degree.max` – the smaller and the larger of two degrees, where what is not a number
  gives way to the other.
* `Degree.negation` and so on – the connectives on degrees.
-/

namespace TrustLogic

/-- The number of numbers from one power of two up to the next, which is 2⁵². -/
def powerCount : Nat := 0x10000000000000

/-- The rank of infinity. There are 2047 powers of two below it, zero counted as one of them. -/
def infinityRank : Nat := 2047 * powerCount

/-- A degree. -/
inductive Degree
  /-- Not a number. -/
  | nan
  /-- The number with the given sign and rank. -/
  | number (negative : Bool) (rank : Fin (infinityRank + 1))
deriving DecidableEq, Repr

namespace Degree

/-- Zero. -/
def zero : Degree := number false ⟨0, by decide⟩

/-- One, which is the first number of its power of two. -/
def one : Degree := number false ⟨1023 * powerCount, by decide⟩

/-- Infinity of either sign. -/
def infinity (negative : Bool) : Degree := number negative ⟨infinityRank, by decide⟩

/-- The number of the given sign whose rank is given, or infinity beyond the last rank. -/
def ofRank (negative : Bool) (rank : Nat) : Degree :=
  number negative ⟨min rank infinityRank, Nat.lt_succ_of_le (Nat.min_le_right ..)⟩

/-- Whether the degree is a number. -/
def isNumber : Degree → Bool
  | nan => false
  | number _ _ => true

/-- Whether the degree is a number other than the infinities. -/
def isFinite : Degree → Bool
  | nan => false
  | number _ rank => rank.val < infinityRank

/-! ### Comparing -/

/-- Where a number stands among all numbers. The zeros stand at the same place. -/
def place (negative : Bool) (rank : Nat) : Int :=
  if negative then -rank else rank

/-- Whether both are numbers and the first is at most the second. -/
def le : Degree → Degree → Bool
  | number s a, number t b => place s a ≤ place t b
  | _, _ => false

/-- Whether both are numbers and the first is less than the second. -/
def lt : Degree → Degree → Bool
  | number s a, number t b => place s a < place t b
  | _, _ => false

/-- Whether both are the same number, whatever the sign of zero. -/
def same : Degree → Degree → Bool
  | number s a, number t b => place s a = place t b
  | _, _ => false

/-- The smaller of two degrees, the second of two zeros. -/
def min : Degree → Degree → Degree
  | nan, y => y
  | x, nan => x
  | x, y => if le y x then y else x

/-- The larger of two degrees, the second of two zeros. -/
def max : Degree → Degree → Degree
  | nan, y => y
  | x, nan => x
  | x, y => if le x y then y else x

/-! ### Connectives -/

/-- A negation holds to the full unless its operand holds to some degree. -/
def negation (x : Degree) : Degree :=
  if lt zero x then zero else one

/-- A conjunction holds to the lesser degree. -/
def conjunction (x y : Degree) : Degree := min x y

/-- A disjunction holds to the greater degree. -/
def disjunction (x y : Degree) : Degree := max x y

/-- An implication holds to the degree of its right side where the left side is at most that, and
to the full otherwise. -/
def implication (x y : Degree) : Degree :=
  if le x y then y else one

/-- A co-implication holds not at all where the left side is at most the right one, and to the
degree of its left side otherwise. -/
def coimplication (x y : Degree) : Degree :=
  if le x y then zero else x

end Degree

end TrustLogic
