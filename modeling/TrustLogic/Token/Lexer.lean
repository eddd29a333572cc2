import TrustLogic.Text.Blank
import TrustLogic.Token.Basic

/-!
# Reading tokens from text

A written formula is read symbol by symbol; blanks between the symbols are skipped, and every
symbol is given with the stretch of the text where it stood. What remains to be read is a value, so
reading on is a function, and a reader that meets a fault stays where it is.

* `LexError` – the faults: a character that begins no symbol, and a symbol of two characters whose
  second one is missing or wrong.
* `Unread.next` – the next symbol and what remains after it; at the end of the text this is the
  symbol `Token.eof`, as often as it is asked for.
* `tokenize` – all symbols of a text, the last one being `Token.eof`.
* `Unread.length_of_next` – every symbol but the last makes what remains shorter, which is why
  reading ends.
-/

namespace TrustLogic

/-- Results can be compared, so that examples of reading can be decided. -/
instance decEqResult {ε α : Type} [DecidableEq ε] [DecidableEq α] : DecidableEq (Except ε α)
  | .ok a, .ok b => decidable_of_iff (a = b) ⟨congrArg Except.ok, Except.ok.inj⟩
  | .error d, .error e => decidable_of_iff (d = e) ⟨congrArg Except.error, Except.error.inj⟩
  | .ok _, .error _ => isFalse nofun
  | .error _, .ok _ => isFalse nofun

/-! ### Faults -/

/-- The characters that begin symbols of two characters only. -/
inductive Lead
  | dash
  | bracket
  | angle
deriving DecidableEq, Repr

namespace Lead

/-- The character itself. -/
def char : Lead → Char
  | dash => '-'
  | bracket => '['
  | angle => '<'

/-- The characters that may follow, as messages mention them. -/
def partners : Lead → String
  | dash => "'>' or '<'"
  | bracket => "']'"
  | angle => "'>'"

/-- The lead that a character is. -/
def ofChar? : Char → Option Lead
  | '-' => some dash
  | '[' => some bracket
  | '<' => some angle
  | _ => none

end Lead

/-- What can be wrong with the symbols of a text. -/
inductive LexError
  /-- A character that begins no symbol. -/
  | invalid (found : Char) (span : Span)
  /-- A lead with another character after it than a partner, or with none at all. -/
  | incomplete (lead : Lead) (found : Option Char) (span : Span)
deriving DecidableEq, Repr

namespace LexError

/-- The stretch of the text that is at fault. -/
def span : LexError → Span
  | invalid _ s => s
  | incomplete _ _ s => s

/-- The fault as a message. -/
def message : LexError → String
  | invalid c s => s!"Invalid character: '{c}' at position {s.text}"
  | incomplete lead found s =>
    let next := match found with
      | some c => s!"'{c}'"
      | none => "end of input"
    s!"Incomplete symbol: '{lead.char}' must be followed by {lead.partners}, found {next}"
      ++ s!" at position {s.text}"

/-- The fault of a text that stands at the given place and begins with no symbol. A wrong partner
belongs to the stretch at fault. -/
def ofText (p : Place) (c : Char) (rest : List Char) : LexError :=
  match Lead.ofChar? c with
  | some lead => incomplete lead rest.head? (Span.ofPlace p (byteLength (c :: rest.take 1)))
  | none => invalid c (Span.ofPlace p c.utf8Size)

end LexError

/-! ### The next symbol -/

/-- A symbol and the stretch of the text where it stands. -/
structure Located where
  /-- The symbol. -/
  token : Token
  /-- Where it stands. -/
  span : Span
deriving DecidableEq, Repr

/-- What remains to be read of a text. -/
structure Unread where
  /-- The characters that remain. -/
  chars : List Char
  /-- The place of the first of them. -/
  place : Place
deriving DecidableEq, Repr

namespace Unread

/-- A text of which nothing has been read. -/
def ofText (s : String) : Unread := ⟨s.toList, Place.start⟩

/-- What remains once a run of characters has been read. -/
def drop (u : Unread) (read rest : List Char) : Unread := ⟨rest, u.place.after read⟩

/-- What remains after the blanks at the front. -/
def skipBlanks (u : Unread) : Unread :=
  u.drop (u.chars.takeWhile isBlank) (u.chars.dropWhile isBlank)

/-- The symbol at the front, where no blank stands before it. -/
def symbol (u : Unread) : Except LexError (Located × Unread) :=
  match u.chars with
  | [] => .ok (⟨.eof, Span.ofPlace u.place 0⟩, u)
  | c :: rest =>
    match Token.scan? (c :: rest) with
    | some (t, rest') =>
      let read := t.literal.toList
      .ok (⟨t, Span.ofPlace u.place (byteLength read)⟩, u.drop read rest')
    | none => .error (LexError.ofText u.place c rest)

/-- **The next symbol**, and what remains after it. Blanks before it are passed over. -/
def next (u : Unread) : Except LexError (Located × Unread) :=
  u.skipBlanks.symbol

theorem length_skipBlanks (u : Unread) : u.skipBlanks.chars.length ≤ u.chars.length :=
  (List.dropWhile_suffix isBlank).length_le

theorem length_of_symbol {u v : Unread} {t : Located} (h : u.symbol = .ok (t, v))
    (ht : t.token ≠ .eof) : v.chars.length < u.chars.length := by
  unfold symbol at h
  split at h
  · obtain ⟨rfl, -⟩ := Prod.mk.inj (Except.ok.inj h)
    exact absurd rfl ht
  · next c rest hc =>
    split at h
    · next t' rest' hs =>
      obtain ⟨-, rfl⟩ := Prod.mk.inj (Except.ok.inj h)
      have hlen := congrArg List.length (Token.scan?_eq_some hs)
      have hpos := List.length_pos_iff.2 (Token.literal_ne_nil_of_scan? hs)
      simp only [List.length_append] at hlen
      simp only [drop, hc]
      omega
    · simp at h

theorem length_of_next {u v : Unread} {t : Located} (h : u.next = .ok (t, v))
    (ht : t.token ≠ .eof) : v.chars.length < u.chars.length :=
  Nat.lt_of_lt_of_le (length_of_symbol h ht) u.length_skipBlanks

/-! ### All symbols -/

/-- All symbols that remain, up to the end of the text. -/
def tokens (u : Unread) : Except LexError (List Located) :=
  match _h : u.next with
  | .error e => .error e
  | .ok (t, v) => if _ht : t.token = .eof then .ok [t] else v.tokens.map (t :: ·)
termination_by u.chars.length
decreasing_by exact length_of_next _h _ht

end Unread

/-- The symbols of a text, each with its place; the last one is `Token.eof`. -/
def tokenize (s : String) : Except LexError (List Located) :=
  (Unread.ofText s).tokens

end TrustLogic
