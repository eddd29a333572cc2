import TrustLogic.Degree.Basic
import TrustLogic.Text.Digits

/-!
# Degrees in decimal notation

Degrees are read from and written in decimal notation. A decimal stands for the number nearest to
it, of two equally near ones for the one with the even rank. A number is written with the fewest
digits that read back as it, and of the decimals with so many digits as the nearest one, the upper
one of two equally near ones; the point is always written in its place and never moved by an
exponent.

All calculations are exact. Every number is a multiple of the smallest positive one, 2⁻¹⁰⁷⁴.

* `Decimal` – a sign, a coefficient and a power of ten; `Decimal.ofText?` reads one.
* `Degree.unitsOfRank` – a rank's number as a multiple of the smallest positive number.
* `Degree.rankOfRatio` – the rank of the number nearest to a ratio.
* `Degree.ofDecimal` – the number nearest to a decimal.
* `Degree.Digits` – the digits of a number and where the point stands among them.
* `Degree.shortest` – the digits a rank is written with, the first of a few that read back;
  `Degree.rank_firstReadingBack` says that such a choice reads back.
* `Degree.ofText?`, `Degree.text` – reading and writing degrees.
-/

namespace TrustLogic

/-! ### Decimals -/

/-- A decimal: the coefficient times a power of ten, with a sign. -/
structure Decimal where
  negative : Bool
  coefficient : Nat
  exponent : Int
deriving DecidableEq, Repr

namespace Decimal

/-- The decimal with the given digits before and after the point and the given exponent. -/
def ofDigits (negative : Bool) (whole fraction : List Char) (exponent : Int) : Decimal :=
  ⟨negative, natOfDigits (whole ++ fraction), exponent - fraction.length⟩

/-- A sign, and what follows it. -/
def takeSign : List Char → Bool × List Char
  | '-' :: rest => (true, rest)
  | '+' :: rest => (false, rest)
  | cs => (false, cs)

/-- The exponent at the end of a decimal; an empty text is the exponent zero. -/
def exponentOfChars? : List Char → Option Int
  | [] => some 0
  | c :: rest =>
    if c = 'e' ∨ c = 'E' then
      let (negative, digits) := takeSign rest
      if digits.isEmpty || !digits.all Char.isDigit then none
      else some (if negative then -natOfDigits digits else natOfDigits digits)
    else none

/-- Reads a decimal: a sign, digits with a point before, between or after them, and an exponent.
The sign, the point and the exponent may be missing. -/
def ofText? (s : String) : Option Decimal :=
  let (negative, cs) := takeSign s.toList
  let whole := cs.takeWhile Char.isDigit
  let rest := cs.dropWhile Char.isDigit
  let (fraction, rest) := match rest with
    | '.' :: rest => (rest.takeWhile Char.isDigit, rest.dropWhile Char.isDigit)
    | rest => ([], rest)
  if whole.isEmpty && fraction.isEmpty then none
  else (exponentOfChars? rest).map (ofDigits negative whole fraction)

end Decimal

namespace Degree

/-! ### The number nearest to a decimal -/

/-- A power of two. -/
def powerOfTwo (n : Nat) : Nat := Nat.pow 2 n

/-- A power of five. -/
def powerOfFive (n : Nat) : Nat := Nat.pow 5 n

/-- A power of ten. -/
def powerOfTen (n : Nat) : Nat := Nat.pow 10 n

/-- How many of the smallest positive numbers make one. -/
def unitsPerOne : Nat := powerOfTwo 1074

/-- The number of a rank, as a multiple of the smallest positive number. Up to rank 2⁵² the numbers
are as far apart as that, and from each power of two on twice as far. -/
def unitsOfRank (rank : Nat) : Nat :=
  if rank < powerCount then rank
  else (powerCount + rank % powerCount) * powerOfTwo (rank / powerCount - 1)

/-- The natural number nearest to a ratio, the even one of two equally near ones. -/
def roundRatio (num den : Nat) : Nat :=
  let q := num / den
  let r := num % den
  if 2 * r < den then q
  else if den < 2 * r then q + 1
  else if q % 2 = 0 then q else q + 1

/-- **Reading.** The rank of the number nearest to a ratio, with no last rank. The numbers around
the ratio are 2ᵏ units apart, where k is the number of binary digits beyond the first 53. -/
def rankOfRatio (num den : Nat) : Nat :=
  let units := num * unitsPerOne
  let k := (units / den).log2 - 52
  k * powerCount + roundRatio units (den * powerOfTwo k)

/-- The rank of the number nearest to a decimal without its sign. A decimal of more than 310 places
before the point is beyond all numbers, and one with more than 330 zeros after the point is nearest
to zero. -/
def rankOfDecimal (coefficient : Nat) (exponent : Int) : Nat :=
  if coefficient = 0 then 0
  else
    let places : Int := (digitsOfNat coefficient).length + exponent
    if 310 < places then infinityRank
    else if places < -330 then 0
    else if 0 ≤ exponent then rankOfRatio (coefficient * powerOfTen exponent.toNat) 1
    else rankOfRatio coefficient (powerOfTen (-exponent).toNat)

/-- The number nearest to a decimal. -/
def ofDecimal (d : Decimal) : Degree :=
  ofRank d.negative (rankOfDecimal d.coefficient d.exponent)

/-! ### Digits and their point -/

/-- The digits of a number without its sign, with no needless zeros at either end. -/
structure Digits where
  digits : List Char
  /-- How many places the point stands after the front of the digits, or, if negative, how many
  zeros stand between the point and the digits. -/
  places : Int
deriving DecidableEq, Repr

namespace Digits

/-- The rank of the number nearest to some digits. -/
def rank (ds : Digits) : Nat :=
  rankOfDecimal (natOfDigits ds.digits) (ds.places - ds.digits.length)

/-- The digits before the point. -/
def whole (ds : Digits) : List Char :=
  let places := ds.places.toNat
  if places = 0 then ['0']
  else ds.digits.take places ++ List.replicate (places - ds.digits.length) '0'

/-- The digits after the point. -/
def fraction (ds : Digits) : List Char :=
  List.replicate (-ds.places).toNat '0' ++ ds.digits.drop ds.places.toNat

/-- The digits with the point in its place, which is left out where no digit follows it. -/
def chars (ds : Digits) : List Char :=
  if ds.fraction.isEmpty then ds.whole else ds.whole ++ '.' :: ds.fraction

/-- Digits without the zeros at their end. -/
def dropTrailingZeros (cs : List Char) : List Char :=
  (cs.reverse.dropWhile (· = '0')).reverse

/-- The digits of a coefficient times a power of ten. -/
def ofDecimal (coefficient : Nat) (exponent : Int) : Digits :=
  let cs := digitsOfNat coefficient
  ⟨dropTrailingZeros cs, cs.length + exponent⟩

end Digits

/-! ### The shortest digits of a number -/

/-- Which one of two decimals counts as nearer to a number that stands halfway between them. -/
inductive Tie
  /-- The upper one. -/
  | up
  /-- The one whose last digit is even. -/
  | even
deriving DecidableEq, Repr

/-- The number of places before the point of a rank's number, or the negated number of zeros after
the point, each moved by 400. -/
def placesOfRank (rank : Nat) : Nat :=
  (digitsOfNat (unitsOfRank rank * powerOfTen 400 / unitsPerOne)).length

/-- The two decimals with the given number of digits around a rank's number, the nearer one
first. -/
def neighbours (tie : Tie) (rank places digits : Nat) : List Digits :=
  let num := unitsOfRank rank * powerOfTen (digits + 800 - places)
  let den := unitsPerOne * powerOfTen 400
  let below := num / den
  let exponent : Int := (places : Int) - 400 - digits
  let lower := Digits.ofDecimal below exponent
  let upper := Digits.ofDecimal (below + 1) exponent
  if 2 * (num % den) < den then [lower, upper]
  else if 2 * (num % den) = den ∧ tie = .even ∧ below % 2 = 0 then [lower, upper]
  else [upper, lower]

/-- The first of some digits that read back as a rank's number, or else the given ones. The digits
come in groups. -/
def firstReadingBack (rank : Nat) (counts : List Nat) (group : Nat → List Digits)
    (otherwise : Digits) : Digits :=
  (counts.findSome? fun digits => (group digits).find? fun ds => ds.rank = rank).getD otherwise

theorem rank_firstReadingBack {rank : Nat} {counts : List Nat} {group : Nat → List Digits}
    {otherwise : Digits} (h : otherwise.rank = rank) :
    (firstReadingBack rank counts group otherwise).rank = rank := by
  unfold firstReadingBack
  cases hf : counts.findSome? fun digits => (group digits).find? fun ds => ds.rank = rank with
  | none => exact h
  | some ds =>
    obtain ⟨digits, -, hd⟩ := List.exists_of_findSome?_eq_some hf
    have hr := List.find?_some hd
    exact of_decide_eq_true hr

/-- All digits of a rank's number, up to the last place of the smallest positive number. -/
def allDigits (rank : Nat) : Digits :=
  Digits.ofDecimal (unitsOfRank rank * powerOfFive 1074) (-1074)

/-- **Writing.** The digits a rank's number is written with: the first ones of up to seventeen that
read back, or else all its digits. -/
def shortest (tie : Tie) (rank : Nat) : Digits :=
  let places := placesOfRank rank
  firstReadingBack rank (List.range' 1 17) (neighbours tie rank places) (allDigits rank)

/-! ### Reading and writing -/

/-- A number without its sign. -/
def rankChars (rank : Nat) : List Char :=
  if rank = 0 then ['0']
  else if rank = infinityRank then ['i', 'n', 'f']
  else (shortest .up rank).chars

/-- How a degree is written. -/
def chars : Degree → List Char
  | nan => ['N', 'a', 'N']
  | number negative rank => if negative then '-' :: rankChars rank else rankChars rank

/-- How a degree is written, as text. -/
def text (x : Degree) : String := String.ofList x.chars

/-- Reads a degree: a decimal, or one of the texts of what no decimal denotes. -/
def ofText? (s : String) : Option Degree :=
  if s = "NaN" then some nan
  else if s = "inf" then some (infinity false)
  else if s = "-inf" then some (infinity true)
  else (Decimal.ofText? s).map ofDecimal

end Degree

end TrustLogic
