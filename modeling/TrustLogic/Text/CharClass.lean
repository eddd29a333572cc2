/-!
# Classes of characters

Some rules of the library are about a Unicode property. Such a property is given as data, a list of
ranges of code points, and a character has the property when one of the ranges holds it.

* `CharClass` – a list of closed ranges of code points.
* `CharClass.has` – membership, characterised by `CharClass.has_iff`.
-/

namespace TrustLogic

/-- A class of characters, listed as closed ranges of code points. -/
structure CharClass where
  /-- The first and the last code point of each range. -/
  ranges : List (Nat × Nat)

namespace CharClass

/-- Whether one of the ranges holds the character. -/
def has (k : CharClass) (c : Char) : Bool :=
  k.ranges.any fun r => r.1 ≤ c.toNat && c.toNat ≤ r.2

theorem has_iff {k : CharClass} {c : Char} :
    k.has c = true ↔ ∃ r ∈ k.ranges, r.1 ≤ c.toNat ∧ c.toNat ≤ r.2 := by
  simp [has, List.any_eq_true]

end CharClass

end TrustLogic
