import TrustLogic.Degree.Decimal
import TrustLogic.Json.Numeral

/-!
# Degrees as numbers of documents

The numbers of a document are read in a few short steps, each of which is rounded. The leading
digits are taken up into a coefficient below 2⁶⁴, the coefficient is rounded, and the result is
multiplied or divided by a rounded power of ten and rounded again. A number with up to fifteen
digits and a power of ten up to 10²² is read as the nearest degree in this way, and any other one
as that or as a close neighbour of it. In particular not every degree is read back from the number
it is written as.

* `takeUp` – the coefficient that digits are taken up into, and the digits that are left over.
* `Json.Numeral.decimal` – the coefficient and the power of ten of a number.
* `Degree.raised?`, `Degree.lowered` – products and quotients with a power of ten.
* `Degree.ofNumeral?` – the degree that a number is read as.
* `Degree.numeral?` – the number that a degree is written as.
-/

namespace TrustLogic

/-! ### The coefficient -/

/-- The bound below which coefficients stay, which is 2⁶⁴. -/
def coefficientBound : Nat := 0x10000000000000000

/-- Takes up digits into a coefficient, up to the first one with which it would reach its bound.
The digits from there on are left over. -/
def takeUp (coefficient : Nat) : List Char → Nat × List Char
  | [] => (coefficient, [])
  | c :: cs =>
    if coefficient * 10 + digitValue c < coefficientBound then
      takeUp (coefficient * 10 + digitValue c) cs
    else (coefficient, c :: cs)

/-- The decimal that a number is taken for. The digits before and after the point are taken up one
after the other; one that is left over counts for a place if it stands before the point, and for
nothing if it stands after it. -/
def Json.Numeral.decimal (n : Json.Numeral) : Decimal :=
  let (whole, wholeLeft) := takeUp 0 n.whole
  let (coefficient, fractionLeft) := takeUp whole n.fraction
  ⟨n.negative, coefficient,
    n.exponent.getD 0 + wholeLeft.length + fractionLeft.length - n.fraction.length⟩

namespace Degree

/-! ### Multiplying and dividing by powers of ten -/

/-- The rank of the number nearest to a natural number. -/
def rankOfNat (n : Nat) : Nat := rankOfRatio n 1

/-- The rank of the number nearest to the product of two ranks' numbers, with no last rank. -/
def rankOfProduct (a b : Nat) : Nat :=
  rankOfRatio (unitsOfRank a * unitsOfRank b) (unitsPerOne * unitsPerOne)

/-- The rank of the number nearest to the quotient of two ranks' numbers, with no last rank. -/
def rankOfQuotient (a b : Nat) : Nat :=
  rankOfRatio (unitsOfRank a) (unitsOfRank b)

/-- The exponent of the greatest power of ten below infinity. -/
def lastExponent : Nat := 308

/-- The rank of the number nearest to a power of ten. -/
def rankOfPower (exponent : Nat) : Nat := rankOfNat (powerOfTen exponent)

/-- The rank of a number multiplied by a power of ten, unless that is beyond all numbers. -/
def raised? (rank exponent : Nat) : Option Nat :=
  if rank = 0 then some 0
  else if lastExponent < exponent then none
  else
    let product := rankOfProduct rank (rankOfPower exponent)
    if product < infinityRank then some product else none

/-- The rank of a number below 2⁶⁴ divided by a power of ten. Beyond the last power of ten it is
divided twice, and what is divided a third time is zero. -/
def lowered (rank exponent : Nat) : Nat :=
  if exponent ≤ lastExponent then rankOfQuotient rank (rankOfPower exponent)
  else if exponent ≤ 2 * lastExponent then
    rankOfQuotient (rankOfQuotient rank (rankOfPower lastExponent))
      (rankOfPower (exponent - lastExponent))
  else 0

/-- The rank that a coefficient times a power of ten is read as, unless that is beyond all
numbers. -/
def scaledRank? (coefficient : Nat) (exponent : Int) : Option Nat :=
  if 0 ≤ exponent then raised? (rankOfNat coefficient) exponent.toNat
  else some (lowered (rankOfNat coefficient) (-exponent).toNat)

/-! ### Reading and writing -/

/-- **Reading.** The degree that a number is read as, unless it is beyond all numbers. -/
def ofNumeral? (n : Json.Numeral) : Option Degree :=
  (scaledRank? n.decimal.coefficient n.decimal.exponent).map (ofRank n.negative)

/-- The number that some digits are written as. The point stands in its place, with a digit on both
sides of it, where the number is less than 10¹⁶ and begins at the fifth place after the point or
before. Elsewhere it stands after the first digit, and an exponent says where it belongs. -/
def Digits.numeral (negative : Bool) (ds : Digits) : Json.Numeral :=
  if -5 < ds.places ∧ ds.places ≤ 16 then
    ⟨negative, ds.whole, if ds.fraction.isEmpty then ['0'] else ds.fraction, none⟩
  else ⟨negative, ds.digits.take 1, ds.digits.drop 1, some (ds.places - 1)⟩

/-- The digits of a rank in a document. -/
def documentDigits (rank : Nat) : Digits :=
  if rank = 0 then ⟨[], 0⟩ else shortest .even rank

/-- **Writing.** The number that a degree is written as, if it is finite. -/
def numeral? : Degree → Option Json.Numeral
  | nan => none
  | number negative rank =>
    if rank.val < infinityRank then some ((documentDigits rank).numeral negative) else none

end Degree

end TrustLogic
