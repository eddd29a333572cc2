/-!
# Places in a text

Whatever is read from a text remembers where it stood: the offset in bytes of the text's UTF-8
form, and the line and the column as a reader counts them, from one. Only the line feed starts a
new line, and a column is one character wide whatever the character.

* `Place` – where a character stands, and `Place.after`, the place that follows a run of
  characters; `Place.after_append` says that it can be computed in pieces.
* `Span` – a stretch of text: the place where it starts and the offset where it ends.
-/

namespace TrustLogic

/-- The number of bytes of a run of characters in UTF-8. -/
def byteLength (cs : List Char) : Nat :=
  cs.foldr (fun c n => c.utf8Size + n) 0

@[simp] theorem byteLength_nil : byteLength [] = 0 := rfl

@[simp] theorem byteLength_cons (c : Char) (cs : List Char) :
    byteLength (c :: cs) = c.utf8Size + byteLength cs := rfl

@[simp] theorem byteLength_append (cs ds : List Char) :
    byteLength (cs ++ ds) = byteLength cs + byteLength ds := by
  induction cs with
  | nil => simp
  | cons c cs ih => simp [ih, Nat.add_assoc]

/-- A place in a text. -/
structure Place where
  /-- The number of bytes before the place. -/
  offset : Nat
  /-- The line, counted from one. -/
  line : Nat
  /-- The column, counted from one, in characters. -/
  column : Nat
deriving DecidableEq, Repr

namespace Place

/-- The place where every text begins. -/
def start : Place := ⟨0, 1, 1⟩

/-- The place after one character. -/
def next (p : Place) (c : Char) : Place :=
  if c = '\n' then ⟨p.offset + c.utf8Size, p.line + 1, 1⟩
  else ⟨p.offset + c.utf8Size, p.line, p.column + 1⟩

/-- The place after a run of characters. -/
def after (p : Place) (cs : List Char) : Place :=
  cs.foldl next p

@[simp] theorem after_nil (p : Place) : p.after [] = p := rfl

@[simp] theorem after_cons (p : Place) (c : Char) (cs : List Char) :
    p.after (c :: cs) = (p.next c).after cs := rfl

theorem after_append (p : Place) (cs ds : List Char) :
    p.after (cs ++ ds) = (p.after cs).after ds := by
  simp [after]

@[simp] theorem offset_next (p : Place) (c : Char) : (p.next c).offset = p.offset + c.utf8Size := by
  simp only [next]; split <;> rfl

theorem offset_after (p : Place) (cs : List Char) :
    (p.after cs).offset = p.offset + byteLength cs := by
  induction cs generalizing p with
  | nil => rfl
  | cons c cs ih => rw [after_cons, ih, offset_next, byteLength_cons, Nat.add_assoc]

end Place

/-- A stretch of text. -/
structure Span where
  /-- The offset of the first byte. -/
  start : Nat
  /-- The offset after the last byte. -/
  stop : Nat
  /-- The line on which the stretch starts. -/
  line : Nat
  /-- The column in which it starts. -/
  column : Nat
deriving DecidableEq, Repr

namespace Span

/-- The stretch that starts at a place and has the given number of bytes. -/
def ofPlace (p : Place) (bytes : Nat) : Span :=
  ⟨p.offset, p.offset + bytes, p.line, p.column⟩

/-- The text of a span, as error messages and listings show it. -/
def text (s : Span) : String :=
  s!"line: {s.line}, column: {s.column}, start: {s.start}, end: {s.stop}"

end Span

end TrustLogic
