/-!
# Characters of a file

A file is a sequence of bytes, and some of them may belong to no character. What a file holds is
therefore given as a list in which every entry is a character or the mark for one stray byte.

* `Glyphs` – such lists; `Glyphs.ofText` gives the one of a text, which has no stray bytes.
* `Glyphs.ofBytes` – the characters and stray bytes of a file in UTF-8. Where a character begins it
  is read whole, and otherwise one byte is passed over.
-/

namespace TrustLogic

/-- The characters of a file, with `none` for each byte that belongs to no character. -/
abbrev Glyphs := List (Option Char)

namespace Glyphs

/-- The characters of a text. -/
def ofText (s : String) : Glyphs := s.toList.map some

/-- The characters and stray bytes from an offset on. -/
def ofBytesFrom (bytes : ByteArray) (i : Nat) : Glyphs :=
  if i < bytes.size then
    match bytes.utf8DecodeChar? i with
    | some c => some c :: ofBytesFrom bytes (i + c.utf8Size)
    | none => none :: ofBytesFrom bytes (i + 1)
  else []
termination_by bytes.size - i
decreasing_by
  · have := c.utf8Size_pos
    omega
  · omega

/-- The characters and stray bytes of a file. -/
def ofBytes (bytes : ByteArray) : Glyphs := ofBytesFrom bytes 0

end Glyphs

end TrustLogic
