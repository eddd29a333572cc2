import Mathlib.Logic.Basic
import TrustLogic.Proofs.Token.Spans
import TrustLogic.Proofs.Token.Stream

/-!
# The first impossible character

A text that is refused is refused for one character: what stands before it can be read as symbols,
and no symbol can be written that begins with it. `TrustLogic.ImpossibleAt` says this about literals
alone, and `TrustLogic.tokenize_error_exact` that there is one such character and that the fault is
about it.

Reading stops at the character and looks at the next one at most. This is enough, as no literal is
longer (`TrustLogic.Token.Written.literal_eq`), and it is why nothing behind these two characters
can change the fault: `TrustLogic.LexError.about` is the part of the text that a fault is determined
by. The end of a text behind a lead is the exception. There the fault is about what is missing, so
it is met in no longer text.

A layout of symbols is where the character is found. `TrustLogic.Unread.reading_of_layout` and
`TrustLogic.Unread.exists_layout_of_reading` say that the symbols read before a fault are those of a
layout in front of it, and of no other one.
-/

namespace TrustLogic

/-! ### Literals at the front of a text -/

namespace Token

theorem scan?_eq_none_iff {cs : List Char} :
    scan? cs = none ↔ ∀ t : Token, t.Written → ¬ t.literal.toList <+: cs := by
  constructor
  · rintro h t ht ⟨rest, rfl⟩
    have hscan : scan? (t.literal.toList ++ rest) = some (t, rest) :=
      scan?_eq_some_iff.mpr ⟨ht, rfl⟩
    rw [h] at hscan
    cases hscan
  · intro h
    rcases hscan : scan? cs with _ | ⟨t, rest⟩
    · rfl
    · obtain ⟨ht, rfl⟩ := scan?_eq_some_iff.mp hscan
      exact absurd (List.prefix_append _ _) (h t ht)

/-- **A literal is one character, or a lead and another one.** -/
theorem Written.literal_eq {t : Token} (h : t.Written) :
    (∃ c, t.literal.toList = [c]) ∨ ∃ (lead : Lead) (d : Char), t.literal.toList = [lead.char, d] := by
  cases h with
  | @var c hc => exact .inl ⟨c, by simp [literal]⟩
  | bracket b => cases b <;> exact .inl ⟨_, rfl⟩
  | operator op =>
    rcases op with (_ | _ | _) | (_ | _ | _ | _)
    · exact .inl ⟨_, rfl⟩
    · exact .inr ⟨.bracket, _, rfl⟩
    · exact .inr ⟨.angle, _, rfl⟩
    · exact .inl ⟨_, rfl⟩
    · exact .inl ⟨_, rfl⟩
    · exact .inr ⟨.dash, _, rfl⟩
    · exact .inr ⟨.dash, _, rfl⟩

end Token

namespace Lead

theorem ofChar?_char (lead : Lead) : ofChar? lead.char = some lead := by
  cases lead <;> rfl

theorem ofChar?_eq_none_iff {c : Char} : ofChar? c = none ↔ c ∉ ['-', '[', '<'] := by
  unfold ofChar?
  split <;> simp_all

theorem char_of_ofChar? {c : Char} {lead : Lead} (h : ofChar? c = some lead) : lead.char = c := by
  unfold ofChar? at h
  split at h <;> cases h <;> rfl

end Lead

/-! ### What a fault is about -/

namespace LexError

variable {p : Place} {c : Char} {rest : List Char}

/-- **What a fault is about**: the character that begins no symbol, and behind a lead the next one
too, if there is one. -/
def about (c : Char) (rest : List Char) : List Char :=
  c :: if (Lead.ofChar? c).isSome then rest.take 1 else []

theorem isPrefix_about (c : Char) (rest : List Char) : about c rest <+: c :: rest := by
  rw [about, List.prefix_cons_inj]
  split
  · exact List.take_prefix 1 rest
  · exact List.nil_prefix

theorem span_ofText (p : Place) (c : Char) (rest : List Char) :
    (ofText p c rest).span = Span.ofPlace p (byteLength (about c rest)) := by
  rw [ofText, about]
  cases Lead.ofChar? c <;> rfl

/-- A fault is determined by its place and by what it is about. -/
theorem ofText_congr {rest' : List Char} (h : about c rest = about c rest') :
    ofText p c rest = ofText p c rest' := by
  rw [ofText, ofText]
  cases hlead : Lead.ofChar? c with
  | none => rfl
  | some lead =>
    have htake : rest.take 1 = rest'.take 1 := by
      simpa [about, hlead] using h
    have hhead : rest.head? = rest'.head? := by
      cases rest <;> cases rest' <;> simp_all
    simp only [htake, hhead]

theorem about_append (hnext : (Lead.ofChar? c).isSome → rest ≠ []) (tail : List Char) :
    about c ((about c rest).tail ++ tail) = about c rest := by
  by_cases hlead : (Lead.ofChar? c).isSome
  · obtain ⟨d, rest', rfl⟩ := List.exists_cons_of_ne_nil (hnext hlead)
    simp [about, hlead]
  · simp [about, hlead]

/-- Only where the text ends behind a lead nothing is found there. -/
theorem eq_nil_of_ofText {lead : Lead} {span : Span} (h : ofText p c rest = .incomplete lead none span) :
    rest = [] := by
  rw [ofText] at h
  split at h
  · obtain ⟨-, hhead, -⟩ := LexError.incomplete.inj h
    exact List.head?_eq_none_iff.mp hhead
  · cases h

/-- **A symbol cannot begin before the end of what a fault is about and end behind it.** If there is
something behind a lead, no symbol is found whatever comes after that. -/
theorem scan?_about_append (hscan : Token.scan? (c :: rest) = none)
    (hnext : (Lead.ofChar? c).isSome → rest ≠ []) (tail : List Char) :
    Token.scan? (about c rest ++ tail) = none := by
  rw [Token.scan?_eq_none_iff] at hscan ⊢
  intro t ht hprefix
  refine hscan t ht (List.IsPrefix.trans ?_ (isPrefix_about c rest))
  refine List.prefix_of_prefix_length_le hprefix (List.prefix_append _ _) ?_
  obtain ⟨d, hd⟩ | ⟨lead, d, hd⟩ := ht.literal_eq
  · simp [hd, about]
  · rw [hd] at hprefix ⊢
    obtain rfl : lead.char = c := (List.cons_prefix_cons.mp hprefix).1
    have hlead : (Lead.ofChar? lead.char).isSome = true := by rw [Lead.ofChar?_char]; rfl
    obtain ⟨d', rest', rfl⟩ := List.exists_cons_of_ne_nil (hnext hlead)
    simp [about, hlead]

end LexError

/-! ### Reading up to a fault -/

namespace Unread

/-- **Where the next symbol is a fault**: behind some blanks stands a character that is none, and no
symbol begins there. -/
theorem next_eq_error {u : Unread} {e : LexError} (h : u.next = .error e) :
    ∃ gap c rest, AllBlank gap ∧ u.chars = gap ++ c :: rest ∧ isBlank c = false ∧
      Token.scan? (c :: rest) = none := by
  have hgap : AllBlank (u.chars.takeWhile isBlank) := List.all_eq_true.mp List.all_takeWhile
  have happ := List.takeWhile_append_dropWhile (p := isBlank) (l := u.chars)
  rw [next, symbol] at h
  simp only [skipBlanks, drop] at h
  split at h
  · cases h
  · next c rest hcons =>
    have hblank : isBlank c = false := by
      have hhead := List.head?_dropWhile_not isBlank u.chars
      rwa [hcons, List.head?_cons] at hhead
    split at h
    · cases h
    · next hscan => exact ⟨_, c, rest, hgap, by rw [← hcons, happ], hblank, hscan⟩

theorem next_of_scan?_eq_none {p : Place} {gap : List Char} {c : Char} {rest : List Char}
    (hgap : AllBlank gap) (hc : isBlank c = false) (hscan : Token.scan? (c :: rest) = none) :
    (⟨gap ++ c :: rest, p⟩ : Unread).next = .error (LexError.ofText (p.after gap) c rest) := by
  have hskip : (⟨gap ++ c :: rest, p⟩ : Unread).skipBlanks = ⟨c :: rest, p.after gap⟩ := by
    refine skipBlanks_eq hgap fun d rest' hd => ?_
    rw [← (List.cons.inj hd).1]
    exact hc
  rw [next, hskip, symbol]
  simp only [hscan]

/-- **Behind a layout the fault is met**, and what is read before it are the symbols of the
layout. -/
theorem reading_of_layout {p : Place} {front : List Char} {ts : List Located}
    (h : Layout p front ts) {c : Char} {rest : List Char} (hc : isBlank c = false)
    (hscan : Token.scan? (c :: rest) = none) :
    (⟨front ++ c :: rest, p⟩ : Unread).reading =
      ⟨ts.dropLast, .error (LexError.ofText (p.after front) c rest)⟩ := by
  induction h with
  | eof hgap => exact reading_of_error (next_of_scan?_eq_none hgap hc hscan)
  | @cons p gap front t ts hgap ht hrest ih =>
    have hnil : ts ≠ [] := by
      obtain ⟨init, rfl, -⟩ := hrest.eq_append_eof
      simp
    rw [List.append_assoc, List.append_assoc, reading_of_ne_eof (next_of_written hgap ht) ht.ne_eof,
      ih, List.dropLast_cons_of_ne_nil hnil, Place.after_append, Place.after_append]
    rfl

/-- **Before a fault there is a layout.** -/
theorem exists_layout_of_reading {u : Unread} {e : LexError} (h : u.reading.last = .error e) :
    ∃ front ts c rest, u.chars = front ++ c :: rest ∧ Layout u.place front ts ∧
      isBlank c = false ∧ Token.scan? (c :: rest) = none := by
  fun_induction reading u with
  | case1 u e' he =>
    obtain ⟨gap, c, rest, hgap, hchars, hc, hscan⟩ := next_eq_error he
    exact ⟨gap, _, c, rest, hchars, .eof hgap, hc, hscan⟩
  | case2 u t v hn ht => cases h
  | case3 u t v hn ht ih =>
    obtain ⟨front, ts, c, rest, hchars, hlayout, hc, hscan⟩ := ih h
    obtain ⟨-, rfl⟩ | ⟨gap, hgap, hw, hgapped, hspan, hplace⟩ := next_eq_ok hn
    · exact absurd rfl ht
    · rw [hplace] at hlayout
      refine ⟨gap ++ (t.token.literal.toList ++ front), _, c, rest, ?_, .cons hgap hw hlayout, hc,
        hscan⟩
      rw [hgapped, hchars]
      simp

end Unread

/-! ### The first impossible character -/

/-- **The text is impossible from a character on**: what stands before the character can be read as
symbols, the character is no blank, and no symbol can be written that begins there. -/
structure ImpossibleAt (s u : String) (c : Char) (rest : List Char) : Prop where
  split : s = u ++ String.ofList (c :: rest)
  readable : ∃ ts, tokenize u = .ok ts
  notBlank : isBlank c = false
  noLiteral : ∀ t : Token, t.Written → ¬ t.literal.toList <+: c :: rest

namespace ImpossibleAt

variable {s u u' : String} {c c' : Char} {rest rest' : List Char} {e : LexError}

theorem toList_eq (h : ImpossibleAt s u c rest) : s.toList = u.toList ++ c :: rest := by
  rw [h.split, String.toList_append, String.toList_ofList]

theorem readingOf_eq (h : ImpossibleAt s u c rest) {ts : List Located} (hts : tokenize u = .ok ts) :
    readingOf s = ⟨ts.dropLast, .error (LexError.ofText (Place.start.after u.toList) c rest)⟩ := by
  have hlayout : Layout .start u.toList ts := tokenize_eq_ok_iff.mp hts
  rw [readingOf, Unread.ofText, h.toList_eq]
  exact Unread.reading_of_layout hlayout h.notBlank (Token.scan?_eq_none_iff.mpr h.noLiteral)

/-- **The text is refused for the character**, at the place where it stands. -/
theorem tokenize_eq (h : ImpossibleAt s u c rest) :
    tokenize s = .error (LexError.ofText (Place.start.after u.toList) c rest) := by
  obtain ⟨ts, hts⟩ := h.readable
  have hreading := h.readingOf_eq hts
  rw [readingOf] at hreading
  rw [tokenize, Unread.tokens_eq_last_map, hreading]
  rfl

end ImpossibleAt

/-- A text that is refused is impossible from a character on. -/
theorem exists_impossibleAt {s : String} {e : LexError} (h : tokenize s = .error e) :
    ∃ u c rest, ImpossibleAt s u c rest := by
  have hlast : (Unread.ofText s).reading.last = .error e := by
    rw [tokenize, Unread.tokens_eq_last_map] at h
    rcases hlast : (Unread.ofText s).reading.last with e' | t
    · rw [hlast] at h
      exact congrArg Except.error (Except.error.inj h)
    · rw [hlast] at h
      cases h
  obtain ⟨front, ts, c, rest, hchars, hlayout, hc, hscan⟩ :=
    Unread.exists_layout_of_reading hlast
  refine ⟨String.ofList front, c, rest, ?_, ⟨ts, ?_⟩, hc, Token.scan?_eq_none_iff.mp hscan⟩
  · rw [← String.ofList_append, ← hchars]
    exact String.ofList_toList.symm
  · rw [tokenize_eq_ok_iff, String.toList_ofList]
    exact hlayout

/-- Beginnings of a text that have as many bytes are the same. -/
theorem eq_of_append_eq_append {front front' back back' : List Char}
    (h : front ++ back = front' ++ back') (hlen : byteLength front = byteLength front') :
    front = front' ∧ back = back' := by
  have hnil {cs ds : List Char} (hcs : byteLength (ds ++ cs) = byteLength ds) : cs = [] := by
    rw [byteLength_append, Nat.add_eq_left] at hcs
    exact by_contra fun hne => Nat.ne_of_gt (byteLength_pos hne) hcs
  rcases List.append_eq_append_iff.mp h with ⟨cs, rfl, rfl⟩ | ⟨cs, rfl, rfl⟩
  · obtain rfl := hnil hlen.symm
    simp
  · obtain rfl := hnil hlen
    simp

namespace ImpossibleAt

variable {s u u' : String} {c c' : Char} {rest rest' : List Char} {e : LexError}

theorem span_start (h : ImpossibleAt s u c rest) (he : tokenize s = .error e) :
    e.span.start = byteLength u.toList := by
  obtain rfl := Except.error.inj (h.tokenize_eq.symm.trans he)
  rw [LexError.span_ofText, Span.ofPlace, Place.offset_after, Place.start, Nat.zero_add]

/-- **There is one such character.** The fault that the text is refused for says where it stands. -/
theorem unique (h : ImpossibleAt s u c rest) (h' : ImpossibleAt s u' c' rest') :
    u' = u ∧ c' = c ∧ rest' = rest := by
  have hlen : byteLength u'.toList = byteLength u.toList :=
    (h'.span_start h.tokenize_eq).symm.trans (h.span_start h.tokenize_eq)
  obtain ⟨hu, hrest⟩ := eq_of_append_eq_append (h'.toList_eq.symm.trans h.toList_eq) hlen
  obtain ⟨hc, hrest⟩ := List.cons.inj hrest
  exact ⟨String.toList_inj.mp hu, hc, hrest⟩

/-- Where nothing is found behind a lead, the stretch at fault ends with the text. -/
theorem span_stop_of_none (h : ImpossibleAt s u c rest) (he : tokenize s = .error e) {lead : Lead}
    {span : Span} (hnone : e = .incomplete lead none span) : e.span.stop = byteLength s.toList := by
  have heq := Except.error.inj (h.tokenize_eq.symm.trans he)
  obtain rfl := LexError.eq_nil_of_ofText (heq.trans hnone)
  have habout : LexError.about c [] = [c] := by simp [LexError.about]
  rw [← heq, LexError.span_ofText, habout, h.toList_eq, byteLength_append, Span.ofPlace,
    Place.offset_after, Place.start, Nat.zero_add]

/-- The text up to the end of what the fault is about, and whatever comes after it. -/
theorem replace (h : ImpossibleAt s u c rest) (hnext : (Lead.ofChar? c).isSome → rest ≠ [])
    (tail : String) :
    ImpossibleAt (u ++ String.ofList (LexError.about c rest) ++ tail) u c
      ((LexError.about c rest).tail ++ tail.toList) where
  split := by
    rw [String.append_assoc]
    refine congrArg (u ++ ·) (String.toList_inj.mp ?_)
    simp [LexError.about]
  readable := h.readable
  notBlank := h.notBlank
  noLiteral := by
    have hscan := LexError.scan?_about_append (Token.scan?_eq_none_iff.mpr h.noLiteral) hnext
      tail.toList
    exact Token.scan?_eq_none_iff.mp hscan

end ImpossibleAt

/-! ### The fault of a text -/

/-- **What a fault says** about a text that is impossible from the character `c` on, which stands
behind the text `u` and before the characters `rest`. -/
structure FaultAt (s u : String) (c : Char) (rest : List Char) (e : LexError) : Prop where
  /-- The symbols read before the fault are all the symbols of what stands before the character. -/
  symbols : tokenize u = .ok ((readingOf s).symbols ++
    [⟨.eof, Span.ofPlace (Place.start.after u.toList) 0⟩])
  /-- Behind these symbols the fault is met. -/
  last : (readingOf s).last = .error e
  /-- The stretch at fault starts with the character. -/
  start : e.span.start = u.utf8ByteSize
  line : e.span.line = 1 + u.toList.count '\n'
  column : e.span.column = 1 + (u.toList.reverse.takeWhile (· ≠ '\n')).length
  /-- Behind a lead the next character is at fault too, if there is one, and it is no partner of the
  lead. -/
  incomplete : c ∈ ['-', '[', '<'] → ∃ lead : Lead, lead.char = c ∧
    e = .incomplete lead rest.head? e.span ∧
    Stretch s e.span.start e.span.stop (String.ofList (c :: rest.take 1)) ∧
    ∀ d, rest.head? = some d → ∀ op : Operator, op.symbol.toList ≠ [c, d]
  /-- Any other character is at fault alone. -/
  invalid : c ∉ ['-', '[', '<'] → e = .invalid c e.span ∧
    Stretch s e.span.start e.span.stop (String.singleton c)
  /-- Whatever stands behind the stretch at fault can be replaced, unless the text ends behind a
  lead. -/
  replaced : ∃ upto back, s = upto ++ back ∧ upto.utf8ByteSize = e.span.stop ∧
    ((∀ lead, e ≠ .incomplete lead none e.span) → ∀ back', tokenize (upto ++ back') = .error e)
  /-- A lead at the end of the text is not at fault in the same way in a longer text. -/
  extended : ∀ lead, e = .incomplete lead none e.span → e.span.stop = s.utf8ByteSize ∧
    ∀ back, back ≠ "" → tokenize (s ++ back) ≠ .error e

namespace ImpossibleAt

variable {s u : String} {c : Char} {rest : List Char} {e : LexError}

/-- What the fault is about stands where its span says. -/
theorem stretch (h : ImpossibleAt s u c rest) (he : tokenize s = .error e) :
    Stretch s e.span.start e.span.stop (String.ofList (LexError.about c rest)) := by
  obtain ⟨back, hback⟩ := LexError.isPrefix_about c rest
  have hstretch := stretch_of_append u.toList (LexError.about c rest) back
  rw [hback, ← h.toList_eq, String.ofList_toList] at hstretch
  obtain rfl := Except.error.inj (h.tokenize_eq.symm.trans he)
  rw [LexError.span_ofText]
  simpa [Span.ofPlace, Place.offset_after, Place.start] using hstretch

/-- A character that is missing is missing behind a lead. -/
theorem ne_nil_of_lead (h : ImpossibleAt s u c rest) (he : tokenize s = .error e)
    (hnone : ∀ lead, e ≠ .incomplete lead none e.span) (hlead : (Lead.ofChar? c).isSome) :
    rest ≠ [] := by
  rintro rfl
  obtain ⟨lead, hlead⟩ := Option.isSome_iff_exists.mp hlead
  have heq := Except.error.inj (h.tokenize_eq.symm.trans he)
  refine hnone lead ?_
  rw [← heq, LexError.ofText, hlead]
  rfl

theorem replaced (h : ImpossibleAt s u c rest) (he : tokenize s = .error e)
    (hnone : ∀ lead, e ≠ .incomplete lead none e.span) (back : String) :
    tokenize (u ++ String.ofList (LexError.about c rest) ++ back) = .error e := by
  have hnext := h.ne_nil_of_lead he hnone
  rw [(h.replace hnext back).tokenize_eq, ← he, h.tokenize_eq]
  exact congrArg Except.error (LexError.ofText_congr (LexError.about_append hnext back.toList))

theorem extended {s' : String} (h : ImpossibleAt s u c rest) (he : tokenize s = .error e)
    {lead : Lead} (hnone : e = .incomplete lead none e.span)
    (hlen : byteLength s.toList ≠ byteLength s'.toList) : tokenize s' ≠ .error e := by
  intro he'
  obtain ⟨u', c', rest', h'⟩ := exists_impossibleAt he'
  exact hlen ((h.span_stop_of_none he hnone).symm.trans (h'.span_stop_of_none he' hnone))

/-- The character behind a lead is no partner of it, as the two would be a symbol. -/
theorem no_partner (h : ImpossibleAt s u c rest) {d : Char} (hd : rest.head? = some d)
    (op : Operator) : op.symbol.toList ≠ [c, d] := by
  intro hop
  obtain ⟨rest', rfl⟩ := List.head?_eq_some_iff.mp hd
  refine h.noLiteral (.operator op) (.operator op) ⟨rest', ?_⟩
  rw [Token.literal, hop]
  rfl

/-- **The fault that a text is refused for** says where it becomes impossible, and why. -/
theorem faultAt (h : ImpossibleAt s u c rest) (he : tokenize s = .error e) :
    FaultAt s u c rest e := by
  have heq : LexError.ofText (Place.start.after u.toList) c rest = e :=
    Except.error.inj (h.tokenize_eq.symm.trans he)
  have hspan : e.span = Span.ofPlace (Place.start.after u.toList)
      (byteLength (LexError.about c rest)) := by
    rw [← heq, LexError.span_ofText]
  obtain ⟨ts, hts⟩ := h.readable
  obtain ⟨init, hinit, -⟩ := (tokenize_eq_ok_iff.mp hts).eq_append_eof
  have hreading := h.readingOf_eq hts
  refine ⟨?symbols, ?last, ?start, ?line, ?column, ?incomplete, ?invalid, ?replaced, ?extended⟩
  case symbols => rw [hts, hreading, hinit, List.dropLast_concat]
  case last => rw [hreading, heq]
  case start => rw [h.span_start he, byteLength_toList]
  case line =>
    rw [hspan]
    exact Place.line_after .start u.toList
  case column =>
    rw [hspan]
    exact Place.column_after u.toList
  case incomplete =>
    intro hc
    obtain ⟨lead, hlead⟩ : ∃ lead, Lead.ofChar? c = some lead :=
      Option.ne_none_iff_exists'.mp fun hnone => Lead.ofChar?_eq_none_iff.mp hnone hc
    have hstretch := h.stretch he
    rw [LexError.about, hlead] at hstretch
    refine ⟨lead, Lead.char_of_ofChar? hlead, ?_, hstretch, fun d hd => h.no_partner hd⟩
    rw [← heq, LexError.ofText, hlead]
    rfl
  case invalid =>
    intro hc
    have hlead : Lead.ofChar? c = none := Lead.ofChar?_eq_none_iff.mpr hc
    have hstretch := h.stretch he
    rw [LexError.about, hlead] at hstretch
    refine ⟨?_, hstretch⟩
    rw [← heq, LexError.ofText, hlead]
    rfl
  case replaced =>
    obtain ⟨back, hback⟩ := LexError.isPrefix_about c rest
    refine ⟨u ++ String.ofList (LexError.about c rest), String.ofList back, ?_, ?_,
      fun hnone => h.replaced he hnone⟩
    · rw [String.append_assoc, ← String.ofList_append, hback]
      exact h.split
    · rw [hspan, String.utf8ByteSize_append, ← byteLength_eq_utf8ByteSize, Span.ofPlace,
        Place.offset_after, Place.start, Nat.zero_add, byteLength_toList]
  case extended =>
    intro lead hnone
    refine ⟨?_, fun back hback => h.extended he hnone ?_⟩
    · rw [h.span_stop_of_none he hnone, byteLength_toList]
    · -- the longer text has more bytes
      rw [String.toList_append, byteLength_append]
      have hpos := byteLength_pos (String.toList_eq_nil_iff.not.mpr hback)
      omega

end ImpossibleAt

/-- **A fault points to the first impossible character.** A text that is refused is impossible from
exactly one character on, and the fault is that of this character. -/
theorem tokenize_error_exact {s : String} {e : LexError} (h : tokenize s = .error e) :
    ∃ u c rest, ImpossibleAt s u c rest ∧
      (∀ u' c' rest', ImpossibleAt s u' c' rest' → u' = u ∧ c' = c ∧ rest' = rest) ∧
      FaultAt s u c rest e := by
  obtain ⟨u, c, rest, himp⟩ := exists_impossibleAt h
  exact ⟨u, c, rest, himp, fun _ _ _ h' => himp.unique h', himp.faultAt h⟩

/-- The dash is refused together with the letter of two bytes behind it, and not with the angle,
which might have closed a symbol. -/
theorem tokenize_error_exact_dash :
    tokenize "é\n -ü> b" = .error (.incomplete .dash (some 'ü') ⟨4, 7, 2, 2⟩) ∧
      ∃ u c rest, ImpossibleAt "é\n -ü> b" u c rest ∧
        (∀ u' c' rest', ImpossibleAt "é\n -ü> b" u' c' rest' → u' = u ∧ c' = c ∧ rest' = rest) ∧
        FaultAt "é\n -ü> b" u c rest (.incomplete .dash (some 'ü') ⟨4, 7, 2, 2⟩) := by
  have h : tokenize "é\n -ü> b" = .error (.incomplete .dash (some 'ü') ⟨4, 7, 2, 2⟩) := by
    decide +kernel
  exact ⟨h, tokenize_error_exact h⟩

end TrustLogic
