import TrustLogic.Text.CharClass

/-!
# Blanks

Between the symbols of a formula any amount of white space may stand. Blanks are the characters
with the Unicode property *White_Space*, which are few: the ASCII controls from tab to carriage
return, the space, and the spaces and separators of general punctuation.

* `blanks` – the table of the property.
* `isBlank` – membership of a character.
-/

namespace TrustLogic

/-- The characters with the property *White_Space*, as closed ranges of code points in ascending
order. -/
def blanks : CharClass := ⟨[
  (0x9, 0xD), (0x20, 0x20), (0x85, 0x85), (0xA0, 0xA0), (0x1680, 0x1680), (0x2000, 0x200A),
  (0x2028, 0x2029), (0x202F, 0x202F), (0x205F, 0x205F), (0x3000, 0x3000)]⟩

/-- Whether a character only separates the symbols of a formula. -/
def isBlank (c : Char) : Bool := blanks.has c

end TrustLogic
