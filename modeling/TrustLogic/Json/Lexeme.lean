import TrustLogic.Json.Numeral

/-!
# Lexemes of JSON

A JSON document is first split into its lexemes: punctuation, words, numbers and strings, with
white space between them.

A string is kept with its text, if it has one: an escape may denote half of a character only, and a
file may hold stray bytes, so a string can be well written and still denote no text.

* `Lexeme` – the lexemes, and `Lexeme.scan?`, the one a document begins with.
* `lexemes?` – all lexemes of a document. Each makes what remains shorter (`length_of_scan?`).
-/

namespace TrustLogic.Json

/-- A lexeme. -/
inductive Lexeme
  | openBrace
  | closeBrace
  | openBracket
  | closeBracket
  | comma
  | colon
  | null
  | bool (b : Bool)
  | number (n : Numeral)
  /-- A string, with its text if it denotes one. -/
  | string (text : Option String)
deriving DecidableEq, Repr

/-! ### Strings -/

/-- What a part of a written string denotes. -/
inductive Piece
  /-- A character. -/
  | char (c : Char)
  /-- A code unit of UTF-16, given by four digits. -/
  | unit (u : Nat)
  /-- A byte that belongs to no character. -/
  | stray
deriving DecidableEq, Repr

/-- The value of a hexadecimal digit. -/
def hexValue? (g : Option Char) : Option Nat :=
  g.bind fun c =>
    if c.isDigit then some (digitValue c)
    else if 'a' ≤ c ∧ c ≤ 'f' then some (c.toNat - 'a'.toNat + 10)
    else if 'A' ≤ c ∧ c ≤ 'F' then some (c.toNat - 'A'.toNat + 10)
    else none

/-- The code unit that four hexadecimal digits denote. -/
def codeUnit? (a b c d : Option Char) : Option Nat :=
  match hexValue? a, hexValue? b, hexValue? c, hexValue? d with
  | some a, some b, some c, some d => some (((a * 16 + b) * 16 + c) * 16 + d)
  | _, _, _, _ => none

/-- The character that a letter after a backslash denotes. -/
def escaped? : Option Char → Option Char
  | some '"' => some '"'
  | some '\\' => some '\\'
  | some '/' => some '/'
  | some 'b' => some '\x08'
  | some 'f' => some '\x0c'
  | some 'n' => some '\n'
  | some 'r' => some '\r'
  | some 't' => some '\t'
  | _ => none

/-- The parts of a written string up to its closing quote, and what follows that. A control
character must not stand in a string as it is. -/
def takePieces? : Glyphs → Option (List Piece × Glyphs)
  | [] => none
  | some '"' :: rest => some ([], rest)
  | some '\\' :: some 'u' :: a :: b :: c :: d :: rest =>
    match codeUnit? a b c d, takePieces? rest with
    | some u, some (ps, rest') => some (.unit u :: ps, rest')
    | _, _ => none
  | some '\\' :: e :: rest =>
    match escaped? e, takePieces? rest with
    | some c, some (ps, rest') => some (.char c :: ps, rest')
    | _, _ => none
  | some c :: rest =>
    if c.toNat < 0x20 ∨ c = '\\' then none
    else (takePieces? rest).map fun found => (.char c :: found.1, found.2)
  | none :: rest => (takePieces? rest).map fun found => (.stray :: found.1, found.2)

/-- Whether a code unit is the first half of a character. -/
def isHighHalf (u : Nat) : Bool := 0xD800 ≤ u && u < 0xDC00

/-- Whether a code unit is the second half of a character. -/
def isLowHalf (u : Nat) : Bool := 0xDC00 ≤ u && u < 0xE000

/-- The text that the parts of a string denote, unless there is a stray byte or half of a character
without its other half. -/
def textOfPieces? : List Piece → Option (List Char)
  | [] => some []
  | .char c :: ps => (textOfPieces? ps).map (c :: ·)
  | .stray :: _ => none
  | .unit u :: .unit v :: ps =>
    if isHighHalf u then
      if isLowHalf v then
        (textOfPieces? ps).map
          (Char.ofNat (0x10000 + (u - 0xD800) * 0x400 + (v - 0xDC00)) :: ·)
      else none
    else if isLowHalf u then none
    else (textOfPieces? (.unit v :: ps)).map (Char.ofNat u :: ·)
  | .unit u :: ps =>
    if isHighHalf u || isLowHalf u then none
    else (textOfPieces? ps).map (Char.ofNat u :: ·)

/-! ### Lexemes -/

/-- Whether a character may stand between lexemes. -/
def isSpace (c : Char) : Bool := c = ' ' || c = '\t' || c = '\n' || c = '\r'

/-- What remains after the space at the front. -/
def skipSpace : Glyphs → Glyphs
  | some c :: rest => if isSpace c then skipSpace rest else some c :: rest
  | gs => gs

/-- The lexeme a document begins with, and what follows it. -/
def Lexeme.scan? : Glyphs → Option (Lexeme × Glyphs)
  | some '\x7b' :: rest => some (.openBrace, rest)
  | some '\x7d' :: rest => some (.closeBrace, rest)
  | some '[' :: rest => some (.openBracket, rest)
  | some ']' :: rest => some (.closeBracket, rest)
  | some ',' :: rest => some (.comma, rest)
  | some ':' :: rest => some (.colon, rest)
  | some 'n' :: some 'u' :: some 'l' :: some 'l' :: rest => some (.null, rest)
  | some 't' :: some 'r' :: some 'u' :: some 'e' :: rest => some (.bool true, rest)
  | some 'f' :: some 'a' :: some 'l' :: some 's' :: some 'e' :: rest => some (.bool false, rest)
  | some '"' :: rest =>
    (takePieces? rest).map fun found =>
      (.string ((textOfPieces? found.1).map String.ofList), found.2)
  | some '-' :: rest => (takeNumber? true rest).map fun found => (.number found.1, found.2)
  | gs => (takeNumber? false gs).map fun found => (.number found.1, found.2)

/-! ### What remains is shorter -/

theorem length_of_takePieces? {gs rest : Glyphs} {ps : List Piece}
    (h : takePieces? gs = some (ps, rest)) : rest.length < gs.length := by
  fun_induction takePieces? gs generalizing ps rest <;> simp_all <;> grind

theorem length_skipSpace (gs : Glyphs) : (skipSpace gs).length ≤ gs.length := by
  fun_induction skipSpace gs with
  | case1 c rest hc ih => simp only [List.length_cons]; omega
  | case2 c rest hc => exact Nat.le_refl _
  | case3 gs hgs => exact Nat.le_refl _

theorem length_of_scan? {gs rest : Glyphs} {l : Lexeme} (h : Lexeme.scan? gs = some (l, rest)) :
    rest.length < gs.length := by
  unfold Lexeme.scan? at h
  split at h
  case h_10 =>
    obtain ⟨⟨ps, rest'⟩, hp, h⟩ := Option.map_eq_some_iff.1 h
    obtain ⟨-, rfl⟩ := Prod.mk.inj h
    exact Nat.lt_succ_of_lt (length_of_takePieces? hp)
  case h_11 =>
    obtain ⟨⟨n, rest'⟩, hn, h⟩ := Option.map_eq_some_iff.1 h
    obtain ⟨-, rfl⟩ := Prod.mk.inj h
    exact Nat.lt_succ_of_lt (length_of_takeNumber? hn)
  case h_12 =>
    obtain ⟨⟨n, rest'⟩, hn, h⟩ := Option.map_eq_some_iff.1 h
    obtain ⟨-, rfl⟩ := Prod.mk.inj h
    exact length_of_takeNumber? hn
  all_goals
    obtain ⟨-, rfl⟩ := Prod.mk.inj (Option.some.inj h)
    simp only [List.length_cons]
    omega

/-- All lexemes of a document. -/
def lexemes? (gs : Glyphs) : Option (List Lexeme) :=
  if (skipSpace gs).isEmpty then some []
  else
    match _h : Lexeme.scan? (skipSpace gs) with
    | none => none
    | some (l, rest) => (lexemes? rest).map (l :: ·)
termination_by gs.length
decreasing_by exact Nat.lt_of_lt_of_le (length_of_scan? _h) (length_skipSpace gs)

end TrustLogic.Json
