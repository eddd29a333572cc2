import TrustLogic.Text.Printable

/-!
# Quoted names

Listings of a formula's structure and the trails of error messages show names between double
quotes. Inside the quotes a name stays readable and unambiguous:

* the quote, the backslash, and the tab, line feed, carriage return and null characters are
  written with a backslash;
* a character without a glyph, or one that would attach to its neighbour, is written as its code
  point in hexadecimal, as in `\u{345}`;
* every other character is written as it is.

Main definitions: `quoteChar` for one character, `quote` for a name.
-/

namespace TrustLogic

/-- A code point between braces, in lower-case hexadecimal without leading zeros. -/
def codePointEscape (c : Char) : List Char :=
  '\\' :: 'u' :: '\x7b' :: (Nat.toDigits 16 c.toNat ++ ['\x7d'])

/-- How one character of a name is written between quotes. -/
def quoteChar (c : Char) : List Char :=
  if c = '\x00' then ['\\', '0']
  else if c = '\t' then ['\\', 't']
  else if c = '\r' then ['\\', 'r']
  else if c = '\n' then ['\\', 'n']
  else if c = '"' ∨ c = '\\' then ['\\', c]
  else if attaching.has c || glyphless.has c then codePointEscape c
  else [c]

/-- A name between double quotes. -/
def quoteChars (cs : List Char) : List Char :=
  '"' :: (cs.flatMap quoteChar ++ ['"'])

/-- A name between double quotes, as text. -/
def quote (s : String) : String :=
  String.ofList (quoteChars s.toList)

end TrustLogic
