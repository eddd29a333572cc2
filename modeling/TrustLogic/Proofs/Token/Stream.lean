import TrustLogic.Proofs.Token.Layout
import TrustLogic.Token.Session

/-!
# Reading on demand and reading at once

A reader of symbols looks ahead, meets faults, is kept aside and taken up again, and all of this
changes what it stores. This file says that none of it can be told from the answers: they are those
of one stream of symbols, and the only thing that matters is how many symbols have been taken.

* `TrustLogic.Reading` – the symbols of a text, one after the other, and what is met behind them:
  the end of the text or a fault, again and again. `TrustLogic.Unread.reading` is the reading of
  what remains of a text, and `TrustLogic.Unread.tokens_eq_last_map` compares it with the reading of
  all symbols at once.
* `TrustLogic.Lexer.upcoming` – what a reader is about to answer. Looking at a symbol moves it from
  the text into the reader, and a fault moves the reader over the blanks before it; neither changes
  what is upcoming.
* `TrustLogic.Tally` – a session in which nothing is kept but the two counts of symbols taken.

`TrustLogic.Lexer.answers_eq_tally` puts the stream, the counts and the sessions together.
-/

namespace TrustLogic

/-! ### Readings -/

/-- **A reading**: symbols, and what is met behind them. -/
structure Reading where
  /-- The symbols. -/
  symbols : List Located
  /-- What is met behind them, the end of a text or a fault. -/
  last : Except LexError Located
deriving DecidableEq

namespace Reading

/-- The answer to the question for the symbol at a position. What is met last is met at all
positions from there on. -/
def answer (r : Reading) (k : Nat) : Except LexError Located :=
  (r.symbols[k]?.map .ok).getD r.last

/-- The position after the one at a position, if a symbol is there; a fault is not gone past. -/
def advance (r : Reading) (k : Nat) : Nat :=
  match r.answer k with
  | .ok _ => k + 1
  | .error _ => k

/-- The reading with one more symbol before it. -/
def cons (t : Located) (r : Reading) : Reading := ⟨t :: r.symbols, r.last⟩

end Reading

namespace Unread

/-- **The reading of what remains**: symbol after symbol, up to the end of the text or the first
fault. -/
def reading (u : Unread) : Reading :=
  match _h : u.next with
  | .error e => ⟨[], .error e⟩
  | .ok (t, v) => if _ht : t.token = .eof then ⟨[], .ok t⟩ else v.reading.cons t
termination_by u.chars.length
decreasing_by exact length_of_next _h _ht

variable {u v : Unread} {t : Located} {e : LexError}

theorem reading_of_error (h : u.next = .error e) : u.reading = ⟨[], .error e⟩ := by
  rw [reading]
  split
  · next e' he => rw [Except.error.inj (h.symm.trans he)]
  · next t' v' he => simp [h] at he

theorem reading_of_eof (h : u.next = .ok (t, v)) (ht : t.token = .eof) :
    u.reading = ⟨[], .ok t⟩ := by
  rw [reading]
  split
  · next e he => simp [h] at he
  · next t' v' he =>
    obtain ⟨rfl, rfl⟩ := Prod.mk.inj (Except.ok.inj (h.symm.trans he))
    rw [dif_pos ht]

theorem reading_of_ne_eof (h : u.next = .ok (t, v)) (ht : t.token ≠ .eof) :
    u.reading = v.reading.cons t := by
  rw [reading]
  split
  · next e he => simp [h] at he
  · next t' v' he =>
    obtain ⟨rfl, rfl⟩ := Prod.mk.inj (Except.ok.inj (h.symm.trans he))
    rw [dif_neg ht]

/-- The end of the text is the last thing that is read, and it is nothing that is read before. -/
theorem eof_reading (u : Unread) :
    (∀ t ∈ u.reading.symbols, t.token ≠ .eof) ∧ ∀ t, u.reading.last = .ok t → t.token = .eof := by
  fun_induction reading u with
  | case1 u e he => simp
  | case2 u t v hn ht =>
    refine ⟨by simp, ?_⟩
    rintro _ ⟨⟩
    exact ht
  | case3 u t v hn ht ih => exact ⟨List.forall_mem_cons.mpr ⟨ht, ih.1⟩, ih.2⟩

/-- **All symbols at once are those that are read one after the other**, with the end of the text
behind them, or the fault that is met in its place. -/
theorem tokens_eq_last_map (u : Unread) :
    u.tokens = u.reading.last.map fun t => u.reading.symbols ++ [t] := by
  fun_induction reading u with
  | case1 u e he => exact tokens_of_error he
  | case2 u t v hn ht => exact tokens_of_eof hn ht
  | case3 u t v hn ht ih =>
    rw [tokens_of_ne_eof hn ht, ih, Reading.cons]
    rcases v.reading.last with e | t' <;> rfl

/-! ### Staying in place -/

theorem skipBlanks_skipBlanks (u : Unread) : u.skipBlanks.skipBlanks = u.skipBlanks := by
  refine skipBlanks_eq allBlank_nil fun c rest hcons => ?_
  have hhead := List.head?_dropWhile_not isBlank u.chars
  rw [hcons, List.head?_cons] at hhead
  exact hhead

/-- The blanks at the front do not matter for what is read. -/
theorem next_skipBlanks (u : Unread) : u.skipBlanks.next = u.next := by
  rw [next, skipBlanks_skipBlanks, next]

theorem eq_of_symbol_eof (h : u.symbol = .ok (t, v)) (ht : t.token = .eof) : v = u := by
  rw [symbol] at h
  split at h
  · exact (Prod.mk.inj (Except.ok.inj h)).2.symm
  · split at h
    · next t' rest' hscan =>
      obtain ⟨rfl, -⟩ := Prod.mk.inj (Except.ok.inj h)
      exact absurd ht (Token.written_of_scan? hscan).ne_eof
    · simp at h

/-- Behind the end of a text the end is met again, at the same place. -/
theorem next_of_next_eof (h : u.next = .ok (t, v)) (ht : t.token = .eof) : v.next = .ok (t, v) := by
  obtain rfl : v = u.skipBlanks := eq_of_symbol_eof h ht
  rw [next_skipBlanks, h]

/-! ### From one symbol to the next -/

/-- **What is read is the next symbol and what is read behind it.** The end of a text is no
exception: what is read behind the end is the end. -/
theorem answer_of_next_ok (h : u.next = .ok (t, v)) :
    u.reading.answer 0 = .ok t ∧ ∀ k, u.reading.answer (k + 1) = v.reading.answer k := by
  by_cases ht : t.token = .eof
  · rw [reading_of_eof h ht, reading_of_eof (next_of_next_eof h ht) ht]
    exact ⟨rfl, fun k => rfl⟩
  · rw [reading_of_ne_eof h ht]
    exact ⟨rfl, fun k => rfl⟩

/-- At a fault nothing is read but the fault, whether or not the blanks before it are passed
over. -/
theorem answer_of_next_error (h : u.next = .error e) (k : Nat) :
    u.reading.answer k = .error e ∧ u.skipBlanks.reading.answer k = .error e := by
  rw [reading_of_error h, reading_of_error (u := u.skipBlanks) (by rw [next_skipBlanks, h])]
  exact ⟨rfl, rfl⟩

end Unread

/-- **The reading of a text.** -/
def readingOf (s : String) : Reading := (Unread.ofText s).reading

namespace Lexer

/-! ### What a reader is about to answer -/

/-- **What a reader is about to answer**: the symbol that it has looked at, if any, and then what is
read of the text. -/
def upcoming (l : Lexer) (k : Nat) : Except LexError Located :=
  match l.ahead, k with
  | none, k => l.unread.reading.answer k
  | some t, 0 => .ok t
  | some _, k + 1 => l.unread.reading.answer k

theorem upcoming_ofText (s : String) (k : Nat) :
    (ofText s).upcoming k = (readingOf s).answer k := rfl

/-- **Taking a symbol** answers what is upcoming, and moves on by one unless this is a fault. -/
theorem upcoming_next (l : Lexer) :
    l.next.1 = l.upcoming 0 ∧
      ∀ k, l.next.2.upcoming k =
        match l.upcoming 0 with
        | .ok _ => l.upcoming (k + 1)
        | .error _ => l.upcoming k := by
  obtain ⟨u, ahead⟩ := l
  rcases ahead with _ | t
  · rcases h : u.next with e | ⟨t, v⟩
    · have hfault := Unread.answer_of_next_error h
      simp only [next, h, upcoming, (hfault _).1]
      exact ⟨trivial, fun k => (hfault k).2⟩
    · obtain ⟨hzero, hsucc⟩ := Unread.answer_of_next_ok h
      simp only [next, h, upcoming, hzero, hsucc]
      exact ⟨trivial, fun k => trivial⟩
  · exact ⟨rfl, fun k => rfl⟩

/-- **Looking at a symbol** answers what is upcoming, and changes nothing of it. -/
theorem upcoming_peek (l : Lexer) :
    l.peek.1 = l.upcoming 0 ∧ ∀ k, l.peek.2.upcoming k = l.upcoming k := by
  obtain ⟨u, ahead⟩ := l
  rcases ahead with _ | t
  · rcases h : u.next with e | ⟨t, v⟩
    · have hfault := Unread.answer_of_next_error h
      simp only [peek, h, upcoming, (hfault _).1]
      exact ⟨trivial, fun k => (hfault k).2⟩
    · obtain ⟨hzero, hsucc⟩ := Unread.answer_of_next_ok h
      simp only [peek, h, upcoming, hzero]
      refine ⟨trivial, fun k => ?_⟩
      cases k with
      | zero => exact hzero.symm
      | succ k => exact (hsucc k).symm
  · exact ⟨rfl, fun k => rfl⟩

/-! ### Counting what has been taken -/

/-- The reader has `k` symbols of the reading behind it. -/
def Stands (r : Reading) (k : Nat) (l : Lexer) : Prop :=
  ∀ i, l.upcoming i = r.answer (k + i)

variable {r : Reading} {k : Nat} {l : Lexer}

theorem stands_ofText (s : String) : Stands (readingOf s) 0 (ofText s) := by
  intro i
  rw [upcoming_ofText, Nat.zero_add]

theorem Stands.next_fst (h : Stands r k l) : l.next.1 = r.answer k :=
  l.upcoming_next.1.trans (h 0)

theorem Stands.peek_fst (h : Stands r k l) : l.peek.1 = r.answer k :=
  l.upcoming_peek.1.trans (h 0)

theorem Stands.next (h : Stands r k l) : Stands r (r.advance k) l.next.2 := by
  intro i
  rw [l.upcoming_next.2 i, h 0, Nat.add_zero, Reading.advance]
  rcases r.answer k with e | t
  · exact h i
  · change l.upcoming (i + 1) = r.answer (k + 1 + i)
    rw [h (i + 1), Nat.add_assoc, Nat.add_comm 1 i]

theorem Stands.peek (h : Stands r k l) : Stands r k l.peek.2 :=
  fun i => (l.upcoming_peek.2 i).trans (h i)

/-- **How many symbols a reader of a text has taken**, along its own line of history. Taking a
symbol counts; meeting a fault does not count, and neither does looking. A reader that is kept aside
is a copy, so a reader and those kept aside have their history in common up to where they part. -/
inductive Taken (s : String) : Nat → Lexer → Prop
  /-- A fresh reader. -/
  | fresh : Taken s 0 (ofText s)
  /-- A symbol is taken. -/
  | symbol {k : Nat} {l : Lexer} {t : Located} (hl : Taken s k l) (ht : l.next.1 = .ok t) :
    Taken s (k + 1) l.next.2
  /-- A fault is met. -/
  | fault {k : Nat} {l : Lexer} {e : LexError} (hl : Taken s k l) (he : l.next.1 = .error e) :
    Taken s k l.next.2
  /-- A symbol or a fault is looked at. -/
  | peek {k : Nat} {l : Lexer} (hl : Taken s k l) : Taken s k l.peek.2

theorem Taken.stands {s : String} (h : Taken s k l) : Stands (readingOf s) k l := by
  induction h with
  | fresh => exact stands_ofText s
  | symbol _ ht ih =>
    have hnext := ih.next
    rwa [Reading.advance, ← ih.next_fst, ht] at hnext
  | fault _ he ih =>
    have hnext := ih.next
    rwa [Reading.advance, ← ih.next_fst, he] at hnext
  | peek _ ih => exact ih.peek

/-! ### Sessions -/

/-- A session of which only counts are kept: how many symbols the reader in use has taken, and how
many the reader kept aside had. -/
structure Tally where
  /-- The count of the reader in use. -/
  taken : Nat
  /-- The count of the reader kept aside. -/
  kept : Nat

namespace Tally

/-- The answer to one call, which the counts determine, and the counts after it. -/
def call (r : Reading) (n : Tally) : Call → Answer × Tally
  | .next => (.symbol (r.answer n.taken), { n with taken := r.advance n.taken })
  | .peek => (.symbol (r.answer n.taken), n)
  | .save => (.saved, { n with kept := n.taken })
  | .restore => (.restored, { n with taken := n.kept })

/-- The answers to a sequence of calls. -/
def answers (r : Reading) (n : Tally) : List Call → List Answer
  | [] => []
  | c :: cs => (n.call r c).1 :: (n.call r c).2.answers r cs

end Tally

namespace Session

/-- The session after a sequence of calls. -/
def after (s : Session) : List Call → Session
  | [] => s
  | c :: cs => (s.call c).2.after cs

/-- The readers of the session have taken as many symbols as the counts say. -/
def Follows (r : Reading) (n : Tally) (σ : Session) : Prop :=
  Stands r n.taken σ.current ∧ Stands r n.kept σ.kept

variable {n : Tally} {σ : Session}

theorem follows_ofText (s : String) :
    Follows (readingOf s) ⟨0, 0⟩ (ofText s) :=
  ⟨stands_ofText s, stands_ofText s⟩

/-- **One call**: the counts give the same answer, and the session still follows them. -/
theorem Follows.call (h : Follows r n σ) (c : Call) :
    (σ.call c).1 = (n.call r c).1 ∧ Follows r (n.call r c).2 (σ.call c).2 := by
  obtain ⟨hcurrent, hkept⟩ := h
  cases c with
  | next => exact ⟨congrArg Answer.symbol hcurrent.next_fst, hcurrent.next, hkept⟩
  | peek => exact ⟨congrArg Answer.symbol hcurrent.peek_fst, hcurrent.peek, hkept⟩
  | save => exact ⟨rfl, hcurrent, hcurrent⟩
  | restore => exact ⟨rfl, hkept, hkept⟩

/-- **Any calls**: the counts give the same answers. -/
theorem Follows.answers_eq (h : Follows r n σ) (cs : List Call) :
    σ.answers cs = n.answers r cs := by
  induction cs generalizing n σ with
  | nil => rfl
  | cons c cs ih =>
    obtain ⟨hanswer, hfollows⟩ := h.call c
    rw [answers, Tally.answers, hanswer, ih hfollows]

theorem Follows.exists_after (h : Follows r n σ) (cs : List Call) :
    ∃ n', Follows r n' (σ.after cs) := by
  induction cs generalizing n σ with
  | nil => exact ⟨n, h⟩
  | cons c cs ih => exact ih (h.call c).2

/-- Looking at a symbol changes no later answer. -/
theorem Follows.answers_peek (h : Follows r n σ) (cs : List Call) :
    (σ.call .peek).2.answers cs = σ.answers cs :=
  ((h.call .peek).2.answers_eq cs).trans (h.answers_eq cs).symm

end Session

/-! ### One stream of answers -/

/-- **All answers are those of one stream.** It consists of the symbols of the text in order and of
what is met behind them, again and again, and this is either the end of the text or a fault; reading
all symbols at once gives the stream up to the end, or the fault. A reader answers with the element
at the count of symbols that it has taken on its own line of history. The answers in a session are
found by counting, where taking up the reader kept aside goes back to its count. Looking at a symbol
changes no answer after it. -/
theorem answers_eq_tally (s : String) :
    tokenize s = ((readingOf s).last.map fun t => (readingOf s).symbols ++ [t]) ∧
    (∀ t ∈ (readingOf s).symbols, t.token ≠ .eof) ∧
    (∀ t, (readingOf s).last = .ok t → t.token = .eof) ∧
    (∀ k l, Taken s k l → l.next.1 = (readingOf s).answer k ∧
      l.peek.1 = (readingOf s).answer k) ∧
    (∀ cs, (Session.ofText s).answers cs = Tally.answers (readingOf s) ⟨0, 0⟩ cs) ∧
    ∀ before cs, (((Session.ofText s).after before).call .peek).2.answers cs
      = ((Session.ofText s).after before).answers cs := by
  obtain ⟨hsymbols, hlast⟩ := (Unread.ofText s).eof_reading
  refine ⟨(Unread.ofText s).tokens_eq_last_map, hsymbols, hlast, fun k l hl => ?_, fun cs => ?_,
    fun before cs => ?_⟩
  · exact ⟨hl.stands.next_fst, hl.stands.peek_fst⟩
  · exact (Session.follows_ofText s).answers_eq cs
  · obtain ⟨n, hn⟩ := (Session.follows_ofText s).exists_after before
    exact hn.answers_peek cs

/-- A letter of two bytes, a blank, and a dash that is no symbol. -/
theorem readingOf_lone_dash :
    readingOf "é -x" =
      ⟨[⟨.var "é", ⟨0, 2, 1, 1⟩⟩], .error (.incomplete .dash (some 'x') ⟨3, 5, 1, 3⟩)⟩ := by
  decide +kernel

/-- Before the fault the reader goes back to the fresh one kept at first, and behind the letter it
stays at the fault, whether this is looked at, taken, or met by a reader kept aside. -/
theorem answers_eq_tally_lone_dash :
    (Session.ofText "é -x").answers
        [.peek, .next, .next, .restore, .next, .save, .peek, .restore, .next] =
      [.symbol (.ok ⟨.var "é", ⟨0, 2, 1, 1⟩⟩), .symbol (.ok ⟨.var "é", ⟨0, 2, 1, 1⟩⟩),
        .symbol (.error (.incomplete .dash (some 'x') ⟨3, 5, 1, 3⟩)), .restored,
        .symbol (.ok ⟨.var "é", ⟨0, 2, 1, 1⟩⟩), .saved,
        .symbol (.error (.incomplete .dash (some 'x') ⟨3, 5, 1, 3⟩)), .restored,
        .symbol (.error (.incomplete .dash (some 'x') ⟨3, 5, 1, 3⟩))] ∧
    Taken "é -x" 1 (ofText "é -x").next.2.peek.2 ∧
    (ofText "é -x").next.2.peek.2.next.1
      = .error (.incomplete .dash (some 'x') ⟨3, 5, 1, 3⟩) := by
  obtain ⟨-, -, -, htaken, hanswers, -⟩ := answers_eq_tally "é -x"
  have hfirst : (ofText "é -x").next.1 = .ok ⟨.var "é", ⟨0, 2, 1, 1⟩⟩ := by
    rw [(htaken 0 _ .fresh).1, readingOf_lone_dash]
    rfl
  have hone : Taken "é -x" 1 (ofText "é -x").next.2.peek.2 := .peek (.symbol .fresh hfirst)
  refine ⟨?_, hone, ?_⟩
  · rw [hanswers, readingOf_lone_dash]
    rfl
  · rw [(htaken 1 _ hone).1, readingOf_lone_dash]
    rfl

end Lexer

end TrustLogic
