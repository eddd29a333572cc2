import TrustLogic.Token.Lexer

/-!
# Reading tokens on demand

Instead of all at once, the symbols of a text can be asked for one by one. A reader can look at the
next symbol without taking it, and a reader can be kept aside and be taken up again later.

* `Lexer` – a text together with the symbol that has been looked at already, if any.
* `Lexer.next`, `Lexer.peek` – the next symbol, taken or only looked at. A fault takes no more than
  the blanks before it, so the same fault is met again.
* `Lexer.Session` – a reader and the one kept aside; `Lexer.Session.answers` – what a sequence of
  calls answers.
-/

namespace TrustLogic

/-- A reader of symbols. -/
structure Lexer where
  /-- What has not been looked at. -/
  unread : Unread
  /-- The symbol that has been looked at but not taken. -/
  ahead : Option Located
deriving DecidableEq, Repr

namespace Lexer

/-- The reader of a text. -/
def ofText (s : String) : Lexer := ⟨Unread.ofText s, none⟩

/-- Takes the next symbol. -/
def next (l : Lexer) : Except LexError Located × Lexer :=
  match l.ahead with
  | some t => (.ok t, ⟨l.unread, none⟩)
  | none =>
    match l.unread.next with
    | .ok (t, u) => (.ok t, ⟨u, none⟩)
    | .error e => (.error e, ⟨l.unread.skipBlanks, none⟩)

/-- Looks at the next symbol. -/
def peek (l : Lexer) : Except LexError Located × Lexer :=
  match l.ahead with
  | some t => (.ok t, l)
  | none =>
    match l.unread.next with
    | .ok (t, u) => (.ok t, ⟨u, some t⟩)
    | .error e => (.error e, ⟨l.unread.skipBlanks, none⟩)

/-- What can be asked of a reader. -/
inductive Call
  /-- Take the next symbol. -/
  | next
  /-- Look at the next symbol. -/
  | peek
  /-- Keep the reader aside, in place of the one kept before. -/
  | save
  /-- Go on with the reader kept aside. -/
  | restore
deriving DecidableEq, Repr

/-- What a call answers. -/
inductive Answer
  /-- A symbol, or the fault that stands in its place. -/
  | symbol (result : Except LexError Located)
  | saved
  | restored

/-- A reader and the reader kept aside. -/
structure Session where
  current : Lexer
  kept : Lexer
deriving DecidableEq, Repr

namespace Session

/-- A new session, in which the fresh reader is the one kept aside. -/
def ofText (s : String) : Session := ⟨Lexer.ofText s, Lexer.ofText s⟩

/-- The answer to one call, and the session after it. -/
def call (s : Session) : Call → Answer × Session
  | .next => (.symbol s.current.next.1, { s with current := s.current.next.2 })
  | .peek => (.symbol s.current.peek.1, { s with current := s.current.peek.2 })
  | .save => (.saved, { s with kept := s.current })
  | .restore => (.restored, { s with current := s.kept })

/-- The answers to a sequence of calls. -/
def answers (s : Session) : List Call → List Answer
  | [] => []
  | c :: cs => (s.call c).1 :: (s.call c).2.answers cs

end Session

end Lexer

end TrustLogic
