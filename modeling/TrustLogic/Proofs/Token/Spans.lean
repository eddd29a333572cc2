import TrustLogic.Proofs.Token.Layout

/-!
# The spans of symbols

Nothing of a text is lost when its symbols are read. The spans say where every literal stands, byte
for byte in the text's UTF-8 form, and what they leave out are blanks, so the text can be put
together again from the symbols, their spans and the blanks between them.

`TrustLogic.Lossless` lists what this means. It is stated about bytes, through
`TrustLogic.Stretch`, and about lines and columns, as a reader of the text counts them, while the
symbols are read character by character with a running place; `TrustLogic.Layout.stands` is the
invariant that connects the two. It says of every symbol that its literal stands after some front
part of the text, and that its span is the one computed from that front part *alone*, however the
reading came there.
-/

namespace TrustLogic

/-! ### Bytes -/

theorem byteLength_eq_utf8ByteSize (cs : List Char) :
    byteLength cs = (String.ofList cs).utf8ByteSize := by
  induction cs with
  | nil => rfl
  | cons c cs ih =>
    rw [byteLength_cons, ih, String.ofList_cons, String.utf8ByteSize_append,
      String.utf8ByteSize_singleton]

theorem byteLength_toList (s : String) : byteLength s.toList = s.utf8ByteSize := by
  rw [byteLength_eq_utf8ByteSize, String.ofList_toList]

theorem byteLength_pos {cs : List Char} (h : cs ≠ []) : 0 < byteLength cs := by
  obtain ⟨c, cs, rfl⟩ := List.exists_cons_of_ne_nil h
  rw [byteLength_cons]
  exact Nat.add_pos_left c.utf8Size_pos _

/-- **A stretch of text**: between the offsets `a` and `b` of the text `s` stands the text `t`. The
offsets count the bytes of the UTF-8 form, and both lie on boundaries of characters. -/
structure Stretch (s : String) (a b : Nat) (t : String) : Prop where
  start_le_stop : a ≤ b
  isValid_start : (⟨a⟩ : String.Pos.Raw).IsValid s
  isValid_stop : (⟨b⟩ : String.Pos.Raw).IsValid s
  bytes : s.toByteArray.extract a b = t.toByteArray

/-- What stands between two parts of a text is the stretch from the length of the first part to
where the second one begins. -/
theorem stretch_of_append (before cs after : List Char) :
    Stretch (String.ofList (before ++ (cs ++ after))) (byteLength before)
      (byteLength before + byteLength cs) (String.ofList cs) := by
  have hvalid : ∀ front back : List Char,
      (⟨byteLength front⟩ : String.Pos.Raw).IsValid (String.ofList (front ++ back)) := by
    intro front back
    rw [String.ofList_append, byteLength_eq_utf8ByteSize]
    exact String.Pos.Raw.isValid_rawEndPos.append_right _
  refine ⟨Nat.le_add_right _ _, hvalid before _, ?_, ?_⟩
  · rw [← byteLength_append, ← List.append_assoc]
    exact hvalid (before ++ cs) after
  · rw [String.ofList_append, String.ofList_append, String.toByteArray_append,
      String.toByteArray_append, byteLength_eq_utf8ByteSize, byteLength_eq_utf8ByteSize,
      ← String.size_toByteArray, ← String.size_toByteArray]
    refine (ByteArray.extract_append_size_add (i := 0)).trans ?_
    exact ByteArray.extract_append_eq_left rfl

/-! ### Lines and columns -/

theorem Place.line_after (p : Place) (cs : List Char) :
    (p.after cs).line = p.line + cs.count '\n' := by
  induction cs generalizing p with
  | nil => rfl
  | cons c cs ih =>
    rw [Place.after_cons, ih, Place.next]
    by_cases hc : c = '\n'
    · rw [if_pos hc, hc, List.count_cons_self]
      change p.line + 1 + cs.count '\n' = p.line + (cs.count '\n' + 1)
      omega
    · rw [if_neg hc, List.count_cons_of_ne hc]

/-- The column after a run of characters counts the characters since the last line feed. The
characters are given last to first, so that the induction meets the last one first. -/
theorem Place.column_after_reverse (cs : List Char) :
    (Place.start.after cs.reverse).column = 1 + (cs.takeWhile (· ≠ '\n')).length := by
  induction cs with
  | nil => rfl
  | cons c cs ih =>
    rw [List.reverse_cons, Place.after_append, Place.after_cons, Place.after_nil, Place.next]
    by_cases hc : c = '\n'
    · simp [hc]
    · simp only [hc, if_false, ih, List.takeWhile_cons, ne_eq, not_false_eq_true, decide_true,
        if_true, List.length_cons]
      omega

theorem Place.column_after (cs : List Char) :
    (Place.start.after cs).column = 1 + (cs.reverse.takeWhile (· ≠ '\n')).length := by
  rw [← Place.column_after_reverse, List.reverse_reverse]

/-! ### The invariant -/

/-- The literal of a symbol stands in a text, and its span is computed from what stands before
it. -/
def Located.Stands (cs : List Char) (t : Located) : Prop :=
  ∃ before after, cs = before ++ (t.token.literal.toList ++ after) ∧
    t.span = Span.ofPlace (Place.start.after before) (byteLength t.token.literal.toList)

namespace Layout

variable {p : Place} {cs : List Char} {ts : List Located}

/-- The place behind blanks and a literal is the one after all that stands before it. -/
theorem place_eq {before : List Char} (hp : p = Place.start.after before) (gap lit : List Char) :
    (p.after gap).after lit = Place.start.after (before ++ (gap ++ lit)) := by
  rw [Place.after_append, Place.after_append, ← hp]

/-- **Every symbol of a layout stands in the text.** The layout may start anywhere, as it does in
the induction, as long as its place is the one after what stands before it. -/
theorem stands (h : Layout p cs ts) (before : List Char) (hp : p = Place.start.after before) :
    ∀ t ∈ ts, t.Stands (before ++ cs) := by
  induction h generalizing before with
  | @eof p gap hgap =>
    intro t ht
    obtain rfl := List.mem_singleton.mp ht
    refine ⟨before ++ gap, [], by simp [Token.literal], ?_⟩
    rw [Place.after_append, ← hp]
    rfl
  | @cons p gap rest t ts hgap hw hrest ih =>
    intro t' ht'
    rcases List.mem_cons.mp ht' with rfl | ht'
    · refine ⟨before ++ gap, rest, by simp, ?_⟩
      rw [Place.after_append, ← hp]
    · have hstands := ih _ (place_eq hp gap t.literal.toList) t' ht'
      simpa only [List.append_assoc] using hstands

theorem offset_le (h : Layout p cs ts) : ∀ t ∈ ts, p.offset ≤ t.span.start := by
  induction h with
  | @eof p gap hgap =>
    intro t ht
    obtain rfl := List.mem_singleton.mp ht
    simp [Span.ofPlace, Place.offset_after]
  | @cons p gap rest t ts hgap hw hrest ih =>
    intro t' ht'
    rcases List.mem_cons.mp ht' with rfl | ht'
    · simp [Span.ofPlace, Place.offset_after]
    · have hle := ih t' ht'
      simp only [Place.offset_after] at hle
      omega

/-- The spans of a layout follow each other without overlapping. -/
theorem pairwise (h : Layout p cs ts) : ts.Pairwise fun t u => t.span.stop ≤ u.span.start := by
  induction h with
  | eof hgap => exact List.pairwise_singleton _ _
  | @cons p gap rest t ts hgap hw hrest ih =>
    refine List.pairwise_cons.mpr ⟨fun u hu => ?_, ih⟩
    have hle := hrest.offset_le u hu
    rwa [Place.offset_after] at hle

end Layout

/-! ### What the spans leave out -/

/-- Where the stretches between symbols begin and end: each begins where the symbol before it
stops, the first one at the given offset, and ends where the next symbol starts. -/
def seamsFrom (a : Nat) (ts : List Located) : List (Nat × Nat) :=
  (a :: ts.map (·.span.stop)).zip (ts.map (·.span.start))

theorem seamsFrom_cons (a : Nat) (t : Located) (ts : List Located) :
    seamsFrom a (t :: ts) = (a, t.span.start) :: seamsFrom t.span.stop ts := rfl

namespace Layout

variable {p : Place} {cs : List Char} {ts : List Located}

/-- **Between the symbols of a layout stand blanks**, and the text is put together from these blanks
and the literals, in turn. -/
theorem exists_gaps (h : Layout p cs ts) (before : List Char) (hp : p = Place.start.after before) :
    ∃ gaps : List (List Char), gaps.length = ts.length ∧
      (∀ e ∈ (seamsFrom (byteLength before) ts).zip gaps, AllBlank e.2 ∧
        Stretch (String.ofList (before ++ cs)) e.1.1 e.1.2 (String.ofList e.2)) ∧
      cs = (List.zipWith (fun gap t => gap ++ t.token.literal.toList) gaps ts).flatten := by
  have hoffset : ∀ {before : List Char} {p : Place}, p = Place.start.after before →
      p.offset = byteLength before := by
    rintro before p rfl
    simp [Place.offset_after, Place.start]
  induction h generalizing before with
  | @eof p gap hgap =>
    refine ⟨[gap], rfl, ?_, by simp [Token.literal]⟩
    intro e he
    obtain rfl : e = ((byteLength before, (p.after gap).offset), gap) := List.mem_singleton.mp he
    refine ⟨hgap, ?_⟩
    rw [Place.offset_after, hoffset hp]
    simpa using stretch_of_append before gap []
  | @cons p gap rest t ts hgap hw hrest ih =>
    have hplace := place_eq hp gap t.literal.toList
    obtain ⟨gaps, hlen, hgaps, hflat⟩ := ih _ hplace
    -- the first seam is before this symbol, and the others are those of a layout that starts
    -- behind it
    refine ⟨gap :: gaps, by simp [hlen], ?_, by simp [← hflat]⟩
    rw [seamsFrom_cons, List.zip_cons_cons]
    refine List.forall_mem_cons.mpr ⟨⟨hgap, ?_⟩, ?_⟩
    · simp only [Span.ofPlace, Place.offset_after, hoffset hp]
      exact stretch_of_append before gap (t.literal.toList ++ rest)
    · rw [← hoffset hplace, Place.offset_after] at hgaps
      simp only [List.append_assoc] at hgaps
      exact hgaps

end Layout

/-! ### Nothing is lost -/

/-- **Nothing of a text is lost in its symbols.** -/
structure Lossless (s : String) (ts : List Located) : Prop where
  /-- The last symbol is the end of the text, and no other one is. -/
  eof_last : ∃ init last, ts = init ++ [last] ∧ last.token = .eof ∧ ∀ t ∈ init, t.token ≠ .eof
  /-- The spans follow each other without overlapping. -/
  ordered : ts.Pairwise fun t u => t.span.stop ≤ u.span.start
  /-- No span but the one of the end of the text is empty. -/
  nonempty : ∀ t ∈ ts, t.token ≠ .eof → t.span.start < t.span.stop
  /-- In the span of a symbol stands its literal. -/
  literal : ∀ t ∈ ts, Stretch s t.span.start t.span.stop t.token.literal
  /-- The end of the text stands behind its last byte. -/
  eof_span : ∀ t ∈ ts, t.token = .eof → t.span.start = s.utf8ByteSize ∧
    t.span.stop = s.utf8ByteSize
  /-- The line counts the line feeds before a symbol, and the column the characters between the
  last of them and the symbol, both from one. -/
  place : ∀ t ∈ ts, ∃ front : List Char, Stretch s 0 t.span.start (String.ofList front) ∧
    t.span.line = 1 + front.count '\n' ∧
    t.span.column = 1 + (front.reverse.takeWhile (· ≠ '\n')).length
  /-- Between the spans stand blanks, and the text is put together from these blanks and the
  literals, in turn. -/
  rebuilt : ∃ gaps : List (List Char), gaps.length = ts.length ∧
    (∀ e ∈ (seamsFrom 0 ts).zip gaps, AllBlank e.2 ∧
      Stretch s e.1.1 e.1.2 (String.ofList e.2)) ∧
    s.toList = (List.zipWith (fun gap t => gap ++ t.token.literal.toList) gaps ts).flatten

namespace Located

variable {s : String} {t : Located}

theorem Stands.stretch (h : t.Stands s.toList) :
    Stretch s t.span.start t.span.stop t.token.literal := by
  obtain ⟨before, after, hs, hspan⟩ := h
  have hstretch := stretch_of_append before t.token.literal.toList after
  rw [← hs, String.ofList_toList, String.ofList_toList] at hstretch
  rw [hspan]
  simpa [Span.ofPlace, Place.offset_after, Place.start] using hstretch

theorem Stands.place (h : t.Stands s.toList) :
    ∃ front : List Char, Stretch s 0 t.span.start (String.ofList front) ∧
      t.span.line = 1 + front.count '\n' ∧
      t.span.column = 1 + (front.reverse.takeWhile (· ≠ '\n')).length := by
  obtain ⟨before, after, hs, hspan⟩ := h
  have hstretch := stretch_of_append [] before (t.token.literal.toList ++ after)
  rw [List.nil_append, ← hs, String.ofList_toList] at hstretch
  refine ⟨before, ?_, ?_, ?_⟩
  · rw [hspan]
    simpa [Span.ofPlace, Place.offset_after, Place.start] using hstretch
  · rw [hspan]
    exact Place.line_after .start before
  · rw [hspan]
    exact Place.column_after before

theorem Stands.nonempty (h : t.Stands s.toList) (hlit : t.token.literal.toList ≠ []) :
    t.span.start < t.span.stop := by
  obtain ⟨before, after, -, hspan⟩ := h
  rw [hspan]
  exact Nat.lt_add_of_pos_right (byteLength_pos hlit)

end Located

/-- **Reading symbols loses nothing.** -/
theorem lossless_of_tokenize {s : String} {ts : List Located} (h : tokenize s = .ok ts) :
    Lossless s ts := by
  have hlayout : Layout .start s.toList ts := tokenize_eq_ok_iff.mp h
  have hstands : ∀ t ∈ ts, t.Stands s.toList := hlayout.stands [] rfl
  obtain ⟨init, hts, hinit⟩ := hlayout.eq_append_eof
  -- a symbol is either one of the first ones, which can be written, or the end of the text
  have hcases : ∀ t ∈ ts,
      t.token.Written ∨ t = ⟨.eof, Span.ofPlace (Place.start.after s.toList) 0⟩ := by
    intro t ht
    rw [hts, List.mem_append, List.mem_singleton] at ht
    exact ht.imp (hinit t) id
  refine ⟨⟨init, _, hts, rfl, fun t ht => (hinit t ht).ne_eof⟩, hlayout.pairwise, ?_,
    fun t ht => (hstands t ht).stretch, ?_, fun t ht => (hstands t ht).place, ?_⟩
  · intro t ht hne
    rcases hcases t ht with hw | rfl
    · obtain ⟨c, cs, hlit, -⟩ := hw.literal_eq_cons
      exact (hstands t ht).nonempty (by simp [hlit])
    · exact absurd rfl hne
  · intro t ht heof
    rcases hcases t ht with hw | rfl
    · exact absurd heof hw.ne_eof
    · simp [Span.ofPlace, Place.offset_after, Place.start, byteLength_toList]
  · have hgaps := hlayout.exists_gaps [] rfl
    simpa only [List.nil_append, byteLength_nil, String.ofList_toList] using hgaps

/-- Two-byte letters, a line feed and a symbol of two characters, which a count of characters in
place of bytes, or of bytes in place of characters, would place wrongly. -/
theorem lossless_two_lines :
    tokenize "é ü\n->b " = .ok [⟨.var "é", ⟨0, 2, 1, 1⟩⟩, ⟨.var "ü", ⟨3, 5, 1, 3⟩⟩,
        ⟨.operator (.binary .implication), ⟨6, 8, 2, 1⟩⟩, ⟨.var "b", ⟨8, 9, 2, 3⟩⟩,
        ⟨.eof, ⟨10, 10, 2, 5⟩⟩] ∧
      Lossless "é ü\n->b " [⟨.var "é", ⟨0, 2, 1, 1⟩⟩, ⟨.var "ü", ⟨3, 5, 1, 3⟩⟩,
        ⟨.operator (.binary .implication), ⟨6, 8, 2, 1⟩⟩, ⟨.var "b", ⟨8, 9, 2, 3⟩⟩,
        ⟨.eof, ⟨10, 10, 2, 5⟩⟩] := by
  have h : tokenize "é ü\n->b " = .ok [⟨.var "é", ⟨0, 2, 1, 1⟩⟩, ⟨.var "ü", ⟨3, 5, 1, 3⟩⟩,
      ⟨.operator (.binary .implication), ⟨6, 8, 2, 1⟩⟩, ⟨.var "b", ⟨8, 9, 2, 3⟩⟩,
      ⟨.eof, ⟨10, 10, 2, 5⟩⟩] := by
    decide +kernel
  exact ⟨h, lossless_of_tokenize h⟩

end TrustLogic
