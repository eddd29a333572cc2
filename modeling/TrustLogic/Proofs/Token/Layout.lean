import TrustLogic.Text.Letter
import TrustLogic.Token.Lexer

/-!
# Layouts of symbols

A text is a *layout* of a list of symbols when it consists of their literals in this order, with
blanks before, between and after them. This file says that reading symbols is the converse of
laying them out: `TrustLogic.Unread.tokens_eq_ok_iff` states that the symbols read from a text are
`ts` exactly when the text is a layout of `ts`, places included.

Two facts make the layout readable again.

* **The literals form a prefix code** (`TrustLogic.Token.scan?_eq_some_iff`): a text begins with at
  most one literal, so nothing that follows a literal can make it longer or cut it short.
* **No literal begins with a blank** (`TrustLogic.Token.Written.literal_eq_cons`): the blanks that
  are passed over before a symbol are all the blanks there are. For variables this is a statement
  about two Unicode properties, that no letter is a blank.

The places are part of a layout, so whatever is said about the spans of symbols is proved by
induction on it.
-/

namespace TrustLogic

/-! ### Blanks and letters -/

/-- A run of blanks, possibly empty. -/
def AllBlank (cs : List Char) : Prop := ∀ c ∈ cs, isBlank c = true

instance : DecidablePred AllBlank :=
  fun cs => decidable_of_iff (cs.all isBlank = true) List.all_eq_true

theorem allBlank_nil : AllBlank [] := by
  intro c hc
  simp at hc

theorem allBlank_cons {c : Char} {cs : List Char} :
    AllBlank (c :: cs) ↔ isBlank c = true ∧ AllBlank cs := by
  simp [AllBlank]

/-- Two classes have no character in common if none of their ranges overlap. -/
theorem CharClass.has_eq_false_of_disjoint {k l : CharClass} {c : Char}
    (hkl : ∀ r ∈ k.ranges, ∀ r' ∈ l.ranges, r.2 < r'.1 ∨ r'.2 < r.1) (hc : k.has c = true) :
    l.has c = false := by
  refine Bool.eq_false_iff.mpr fun hl => ?_
  obtain ⟨r, hr, h1, h2⟩ := CharClass.has_iff.mp hc
  obtain ⟨r', hr', h1', h2'⟩ := CharClass.has_iff.mp hl
  rcases hkl r hr r' hr' with h | h <;> omega

/-- **No letter is a blank.** -/
theorem isBlank_eq_false_of_isLetter {c : Char} (hc : isLetter c = true) : isBlank c = false := by
  refine CharClass.has_eq_false_of_disjoint (k := letters) (l := blanks) ?_ hc
  -- the tables are too long to go through them by hand, so their ranges are compared in pairs
  have hdisj : (letters.ranges.all fun r => blanks.ranges.all fun r' =>
      decide (r.2 < r'.1) || decide (r'.2 < r.1)) = true := by
    decide +kernel
  simpa only [List.all_eq_true, Bool.or_eq_true, decide_eq_true_eq] using hdisj

/-! ### The symbols that can be written -/

namespace Token

/-- The symbols that can be written: the operators, the brackets, and the variables that have a
single letter as their name. -/
inductive Written : Token → Prop
  /-- A variable with a single letter as its name. -/
  | var {c : Char} (hc : isLetter c = true) : Written (.var (String.singleton c))
  /-- An operator. -/
  | operator (op : Operator) : Written (.operator op)
  /-- A bracket. -/
  | bracket (b : Bracket) : Written (.bracket b)

theorem Written.ne_eof {t : Token} (h : t.Written) : t ≠ .eof := by
  rintro rfl
  cases h

theorem scanVar?_eq_none {c : Char} {rest : List Char} (hc : isLetter c = false) :
    scanVar? (c :: rest) = none := by
  simp [scanVar?, hc]

/-- No operator and no bracket begins with a letter or a blank. -/
theorem exists_symbol_eq_cons (op : Operator) :
    ∃ c cs, op.symbol.toList = c :: cs ∧ isLetter c = false ∧ isBlank c = false := by
  rcases op with (_ | _ | _) | (_ | _ | _ | _)
  all_goals exact ⟨_, _, rfl, by decide +kernel, by decide +kernel⟩

theorem exists_bracket_eq_cons (b : Bracket) :
    ∃ c cs, b.symbol.toList = c :: cs ∧ isLetter c = false ∧ isBlank c = false := by
  cases b
  all_goals exact ⟨_, _, rfl, by decide +kernel, by decide +kernel⟩

/-- **No literal begins with a blank**, and none is empty. -/
theorem Written.literal_eq_cons {t : Token} (h : t.Written) :
    ∃ c cs, t.literal.toList = c :: cs ∧ isBlank c = false := by
  cases h with
  | @var c hc => exact ⟨c, [], by simp [literal], isBlank_eq_false_of_isLetter hc⟩
  | operator op =>
    obtain ⟨c, cs, h, -, hb⟩ := exists_symbol_eq_cons op
    exact ⟨c, cs, h, hb⟩
  | bracket b =>
    obtain ⟨c, cs, h, -, hb⟩ := exists_bracket_eq_cons b
    exact ⟨c, cs, h, hb⟩

theorem written_of_scan? {cs rest : List Char} {t : Token} (h : scan? cs = some (t, rest)) :
    t.Written := by
  unfold scan? at h
  split at h
  · next hv =>
    obtain rfl := Option.some.inj h
    obtain ⟨c, hc, rfl, -⟩ := scanVar?_eq_some hv
    exact .var hc
  · split at h
    · obtain ⟨rfl, -⟩ := Prod.mk.inj (Option.some.inj h)
      exact .operator _
    · obtain ⟨⟨b, rest'⟩, -, hp⟩ := Option.map_eq_some_iff.mp h
      obtain ⟨rfl, -⟩ := Prod.mk.inj hp
      exact .bracket b

theorem scan?_operator (op : Operator) (rest : List Char) :
    scan? (op.symbol.toList ++ rest) = some (.operator op, rest) := by
  have hv : scanVar? (op.symbol.toList ++ rest) = none := by
    obtain ⟨c, cs, h, hc, -⟩ := exists_symbol_eq_cons op
    rw [h, List.cons_append, scanVar?_eq_none hc]
  have ho : Operator.scan? (op.symbol.toList ++ rest) = some (op, rest) := by
    rcases op with (_ | _ | _) | (_ | _ | _ | _) <;> rfl
  simp only [scan?, hv, ho]

theorem scan?_bracket (b : Bracket) (rest : List Char) :
    scan? (b.symbol.toList ++ rest) = some (.bracket b, rest) := by
  have hv : scanVar? (b.symbol.toList ++ rest) = none := by
    obtain ⟨c, cs, h, hc, -⟩ := exists_bracket_eq_cons b
    rw [h, List.cons_append, scanVar?_eq_none hc]
  have ho : Operator.scan? (b.symbol.toList ++ rest) = none := by
    cases b <;> rfl
  have hb : Bracket.scan? (b.symbol.toList ++ rest) = some (b, rest) := by
    cases b <;> rfl
  simp only [scan?, hv, ho, hb, Option.map_some]

/-- **The literals form a prefix code**: the symbol that a text begins with is the only one whose
literal the text begins with, whatever follows. -/
theorem scan?_eq_some_iff {cs rest : List Char} {t : Token} :
    scan? cs = some (t, rest) ↔ t.Written ∧ cs = t.literal.toList ++ rest := by
  constructor
  · exact fun h => ⟨written_of_scan? h, scan?_eq_some h⟩
  · rintro ⟨ht, rfl⟩
    cases ht with
    | @var c hc => simp [literal, scan?, scanVar?, hc]
    | operator op => exact scan?_operator op rest
    | bracket b => exact scan?_bracket b rest

end Token

/-! ### Layouts -/

/-- **A layout of symbols**: the text `cs`, which starts at the place `p`, consists of the literals
of the symbols `ts` with blanks before, between and after them. The last symbol is the end of the
text, and every symbol is given with the stretch where its literal stands. -/
inductive Layout : Place → List Char → List Located → Prop
  /-- Nothing but blanks, and the end of the text after them. -/
  | eof {p : Place} {gap : List Char} (hgap : AllBlank gap) :
    Layout p gap [⟨.eof, Span.ofPlace (p.after gap) 0⟩]
  /-- Blanks, a symbol, and a layout of the other symbols. -/
  | cons {p : Place} {gap rest : List Char} {t : Token} {ts : List Located} (hgap : AllBlank gap)
      (ht : t.Written) (hrest : Layout ((p.after gap).after t.literal.toList) rest ts) :
    Layout p (gap ++ (t.literal.toList ++ rest))
      (⟨t, Span.ofPlace (p.after gap) (byteLength t.literal.toList)⟩ :: ts)

/-- The last symbol of a layout is the end of the text, and no other one is. -/
theorem Layout.eq_append_eof {p : Place} {cs : List Char} {ts : List Located}
    (h : Layout p cs ts) :
    ∃ init, ts = init ++ [⟨.eof, Span.ofPlace (p.after cs) 0⟩] ∧
      ∀ t ∈ init, t.token.Written := by
  induction h with
  | eof hgap => exact ⟨[], rfl, by simp⟩
  | @cons p gap rest t ts hgap hw hrest ih =>
    obtain ⟨init, rfl, hinit⟩ := ih
    refine ⟨⟨t, Span.ofPlace (p.after gap) (byteLength t.literal.toList)⟩ :: init, ?_,
      List.forall_mem_cons.mpr ⟨hw, hinit⟩⟩
    rw [Place.after_append, Place.after_append, List.cons_append]

namespace Unread

/-! ### One symbol -/

theorem skipBlanks_eq {p : Place} {gap cs : List Char} (hgap : AllBlank gap)
    (hcs : ∀ c rest, cs = c :: rest → isBlank c = false) :
    (⟨gap ++ cs, p⟩ : Unread).skipBlanks = ⟨cs, p.after gap⟩ := by
  have htake : cs.takeWhile isBlank = [] := by
    cases cs with
    | nil => rfl
    | cons c rest => simp [hcs c rest rfl]
  have hdrop : cs.dropWhile isBlank = cs := by
    cases cs with
    | nil => rfl
    | cons c rest => simp [hcs c rest rfl]
  simp [skipBlanks, drop, List.takeWhile_append_of_pos hgap, List.dropWhile_append_of_pos hgap,
    htake, hdrop]

/-- Where only blanks remain, the next symbol is the end of the text. -/
theorem next_of_allBlank {p : Place} {gap : List Char} (hgap : AllBlank gap) :
    (⟨gap, p⟩ : Unread).next
      = .ok (⟨.eof, Span.ofPlace (p.after gap) 0⟩, ⟨[], p.after gap⟩) := by
  have h : (⟨gap ++ [], p⟩ : Unread).skipBlanks = ⟨[], p.after gap⟩ := skipBlanks_eq hgap (by simp)
  rw [List.append_nil] at h
  rw [next, h]
  rfl

/-- Where a literal stands after some blanks, its symbol is the next one. -/
theorem next_of_written {p : Place} {gap rest : List Char} {t : Token} (hgap : AllBlank gap)
    (ht : t.Written) :
    (⟨gap ++ (t.literal.toList ++ rest), p⟩ : Unread).next
      = .ok (⟨t, Span.ofPlace (p.after gap) (byteLength t.literal.toList)⟩,
          ⟨rest, (p.after gap).after t.literal.toList⟩) := by
  obtain ⟨c, cs, hlit, hc⟩ := ht.literal_eq_cons
  have hskip : (⟨gap ++ (t.literal.toList ++ rest), p⟩ : Unread).skipBlanks
      = ⟨t.literal.toList ++ rest, p.after gap⟩ := by
    refine skipBlanks_eq hgap fun d rest' hd => ?_
    rw [hlit, List.cons_append] at hd
    exact (List.cons.inj hd).1 ▸ hc
  have hscan : Token.scan? (t.literal.toList ++ rest) = some (t, rest) :=
    Token.scan?_eq_some_iff.mpr ⟨ht, rfl⟩
  rw [next, hskip, symbol]
  rw [hlit, List.cons_append] at hscan ⊢
  simp only [hscan, hlit, drop]

/-- **The next symbol is the one laid out first**: either only blanks remain, or blanks and a
literal stand at the front of the text. -/
theorem next_eq_ok {u v : Unread} {t : Located} (h : u.next = .ok (t, v)) :
    (AllBlank u.chars ∧ t = ⟨.eof, Span.ofPlace (u.place.after u.chars) 0⟩) ∨
      ∃ gap, AllBlank gap ∧ t.token.Written ∧
        u.chars = gap ++ (t.token.literal.toList ++ v.chars) ∧
        t.span = Span.ofPlace (u.place.after gap) (byteLength t.token.literal.toList) ∧
        v.place = (u.place.after gap).after t.token.literal.toList := by
  have hgap : AllBlank (u.chars.takeWhile isBlank) := List.all_eq_true.mp List.all_takeWhile
  have happ := List.takeWhile_append_dropWhile (p := isBlank) (l := u.chars)
  rw [next, symbol] at h
  simp only [skipBlanks, drop] at h
  -- behind the blanks the text is over, or it goes on with a character that is no blank
  split at h
  · next hnil =>
    obtain ⟨rfl, -⟩ := Prod.mk.inj (Except.ok.inj h)
    rw [hnil, List.append_nil] at happ
    exact Or.inl ⟨happ ▸ hgap, by rw [happ]⟩
  · next c rest hcons =>
    split at h
    · next t' rest' hscan =>
      obtain ⟨rfl, rfl⟩ := Prod.mk.inj (Except.ok.inj h)
      obtain ⟨ht, hcs⟩ := Token.scan?_eq_some_iff.mp hscan
      refine Or.inr ⟨u.chars.takeWhile isBlank, hgap, ht, ?_, rfl, rfl⟩
      rw [← hcs, ← hcons, happ]
    · simp at h

/-! ### All symbols -/

theorem tokens_of_error {u : Unread} {e : LexError} (h : u.next = .error e) :
    u.tokens = .error e := by
  rw [tokens]
  split
  · next e' he => rw [Except.error.inj (h.symm.trans he)]
  · next t v he => simp [h] at he

theorem tokens_of_eof {u v : Unread} {t : Located} (h : u.next = .ok (t, v))
    (ht : t.token = .eof) : u.tokens = .ok [t] := by
  rw [tokens]
  split
  · next e he => simp [h] at he
  · next t' v' he =>
    obtain ⟨rfl, rfl⟩ := Prod.mk.inj (Except.ok.inj (h.symm.trans he))
    rw [dif_pos ht]

theorem tokens_of_ne_eof {u v : Unread} {t : Located} (h : u.next = .ok (t, v))
    (ht : t.token ≠ .eof) : u.tokens = v.tokens.map (t :: ·) := by
  rw [tokens]
  split
  · next e he => simp [h] at he
  · next t' v' he =>
    obtain ⟨rfl, rfl⟩ := Prod.mk.inj (Except.ok.inj (h.symm.trans he))
    rw [dif_neg ht]

theorem tokens_of_layout {p : Place} {cs : List Char} {ts : List Located} (h : Layout p cs ts) :
    (⟨cs, p⟩ : Unread).tokens = .ok ts := by
  induction h with
  | eof hgap => exact tokens_of_eof (next_of_allBlank hgap) rfl
  | cons hgap ht _ ih =>
    rw [tokens_of_ne_eof (next_of_written hgap ht) ht.ne_eof, ih]
    rfl

theorem layout_of_tokens (u : Unread) {ts : List Located} (h : u.tokens = .ok ts) :
    Layout u.place u.chars ts := by
  fun_induction tokens u generalizing ts with
  | case1 u e he => simp at h
  | case2 u t v hn ht =>
    obtain rfl := Except.ok.inj h
    rcases next_eq_ok hn with ⟨hblank, rfl⟩ | ⟨gap, -, hw, -⟩
    · exact .eof hblank
    · exact absurd ht hw.ne_eof
  | case3 u t v hn ht ih =>
    -- the symbol is no end, so it is laid out before whatever the rest is a layout of
    rcases next_eq_ok hn with ⟨-, rfl⟩ | ⟨gap, hgap, hw, hchars, hspan, hplace⟩
    · exact absurd rfl ht
    · rcases hv : v.tokens with e | ts'
      · simp [hv, Except.map] at h
      · obtain rfl : t :: ts' = ts := by simpa [hv, Except.map] using h
        have hrest := ih hv
        rw [hplace] at hrest
        have hcons := Layout.cons hgap hw hrest
        rwa [← hspan, ← hchars] at hcons

/-- **Reading symbols is the converse of laying them out.** -/
theorem tokens_eq_ok_iff {p : Place} {cs : List Char} {ts : List Located} :
    (⟨cs, p⟩ : Unread).tokens = .ok ts ↔ Layout p cs ts :=
  ⟨fun h => layout_of_tokens ⟨cs, p⟩ h, tokens_of_layout⟩

end Unread

/-- The symbols of a text are those it is a layout of. -/
theorem tokenize_eq_ok_iff {s : String} {ts : List Located} :
    tokenize s = .ok ts ↔ Layout .start s.toList ts :=
  Unread.tokens_eq_ok_iff

end TrustLogic
