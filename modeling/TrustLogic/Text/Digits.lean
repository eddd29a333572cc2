/-!
# Decimal digits

* `natOfDigits` – the number that a run of decimal digits denotes.
* `digitsOfNat` – the decimal digits of a number, without leading zeros.
-/

namespace TrustLogic

/-- The value of a decimal digit. -/
def digitValue (c : Char) : Nat := c.toNat - '0'.toNat

/-- The number that a run of decimal digits denotes. -/
def natOfDigits (cs : List Char) : Nat :=
  cs.foldl (fun n c => 10 * n + digitValue c) 0

/-- The decimal digits of a number. -/
def digitsOfNat (n : Nat) : List Char := Nat.toDigits 10 n

end TrustLogic
