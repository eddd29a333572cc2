import Mathlib.Data.List.Forall2
import TrustLogic.Proofs.Json.Numeral
import TrustLogic.Trust.JsonCodec

/-!
# Written values

A document is put together from the texts of its parts, and it is read in two passes over the whole.
The first pass cuts it into lexemes, and the second one builds a value from them. This file says that
a part can be looked at by itself. Its text is cut into the same lexemes wherever it stands, and they
build the same value whatever is being built around it. `TrustLogic.Json.Denotes` is both statements
at once, and an object denotes an object if the texts of its fields denote their values
(`TrustLogic.Json.denotes_object`).

All that a part has to know of what comes behind it is that a number ends there. Names need not even
know this much: the quote at the end of a name is told from those within it by the backslash before
them.
-/

namespace TrustLogic.Json

open Trust (documentEscape? documentChar documentName documentObject)

/-! ### Names -/

/-- The part of a written name that a character is read back from. -/
def pieceOf (c : Char) : Piece :=
  if documentEscape? c = none ∧ c.toNat < 0x20 then .unit c.toNat else .char c

/-- **A letter behind a backslash is read as the character that it stands for**, and it is not the
letter that four digits follow. -/
theorem escaped?_of_documentEscape? {c letter : Char} (h : documentEscape? c = some letter) :
    escaped? (some letter) = some c ∧ letter ≠ 'u' := by
  unfold documentEscape? at h
  split at h <;> cases h <;> exact ⟨rfl, by decide⟩

theorem ne_of_documentEscape?_eq_none {c : Char} (h : documentEscape? c = none) :
    c ≠ '"' ∧ c ≠ '\\' := by
  constructor <;> (rintro rfl; cases h)

theorem hexValue?_digitChar {n : Nat} (hn : n < 16) : hexValue? (some n.digitChar) = some n := by
  have hall : ∀ k < 16, hexValue? (some (Nat.digitChar k)) = some k := by decide
  exact hall n hn

theorem codeUnit?_digitChar {n : Nat} (hn : n < 0x20) :
    codeUnit? (some '0') (some '0') (some (n / 16).digitChar) (some (n % 16).digitChar)
      = some n := by
  have hzero : hexValue? (some '0') = some 0 := rfl
  rw [codeUnit?, hzero, hexValue?_digitChar (by omega), hexValue?_digitChar (by omega)]
  exact congrArg some (by omega)

/-- **A character of a name is read back**, whatever follows it. -/
theorem takePieces?_documentChar (c : Char) (gs : Glyphs) :
    takePieces? ((documentChar c).map some ++ gs)
      = (takePieces? gs).map fun found => (pieceOf c :: found.1, found.2) := by
  cases hescape : documentEscape? c with
  | some letter =>
    have hchars : (documentChar c).map some ++ gs = some '\\' :: some letter :: gs := by
      simp [documentChar, hescape]
    obtain ⟨hletter, hu⟩ := escaped?_of_documentEscape? hescape
    rw [hchars, takePieces?, hletter, pieceOf, hescape, if_neg fun h => nomatch h.1]
    · cases takePieces? gs <;> rfl
    · rintro a b c' d rest h -
      exact hu (Option.some.inj h)
  | none =>
    by_cases hcontrol : c.toNat < 0x20
    · have hchars : (documentChar c).map some ++ gs =
          some '\\' :: some 'u' :: some '0' :: some '0' :: some (c.toNat / 16).digitChar ::
            some (c.toNat % 16).digitChar :: gs := by
        simp [documentChar, hescape, hcontrol]
      rw [hchars, takePieces?, codeUnit?_digitChar hcontrol, pieceOf, if_pos ⟨hescape, hcontrol⟩]
      cases takePieces? gs <;> rfl
    · have hchars : (documentChar c).map some ++ gs = some c :: gs := by
        simp [documentChar, hescape, hcontrol]
      have hpiece : pieceOf c = .char c := if_neg fun h => hcontrol h.2
      obtain ⟨hquote, hbackslash⟩ := ne_of_documentEscape?_eq_none hescape
      rw [hchars, takePieces?, hpiece]
      · simp [hcontrol, hbackslash]
      · exact hquote
      · exact fun a b c' d rest _ h => hbackslash h
      · exact fun e rest _ h => hbackslash h

/-- The parts of a written name are those of its characters, up to the quote at the end. -/
theorem takePieces?_append (cs : List Char) (gs : Glyphs) :
    takePieces? ((cs.flatMap documentChar).map some ++ some '"' :: gs)
      = some (cs.map pieceOf, gs) := by
  induction cs with
  | nil => rfl
  | cons c cs ih =>
    rw [List.flatMap_cons, List.map_append, List.append_assoc, takePieces?_documentChar, ih]
    rfl

/-- A code unit that is no half of a character denotes one, whatever follows it. -/
theorem textOfPieces?_unit {u : Nat} (hhigh : isHighHalf u = false) (hlow : isLowHalf u = false)
    (ps : List Piece) :
    textOfPieces? (.unit u :: ps) = (textOfPieces? ps).map (Char.ofNat u :: ·) := by
  rcases ps with _ | ⟨c | v | _, ps⟩ <;> simp [textOfPieces?, hhigh, hlow]

/-- The characters of a name are what its parts denote. -/
theorem textOfPieces?_map_pieceOf (cs : List Char) :
    textOfPieces? (cs.map pieceOf) = some cs := by
  induction cs with
  | nil => rfl
  | cons c cs ih =>
    rw [List.map_cons]
    by_cases hunit : documentEscape? c = none ∧ c.toNat < 0x20
    · have hcontrol := hunit.2
      have hhigh : isHighHalf c.toNat = false := by
        simp only [isHighHalf, Bool.and_eq_false_iff, decide_eq_false_iff_not]
        omega
      have hlow : isLowHalf c.toNat = false := by
        simp only [isLowHalf, Bool.and_eq_false_iff, decide_eq_false_iff_not]
        omega
      rw [pieceOf, if_pos hunit, textOfPieces?_unit hhigh hlow, ih, Option.map_some,
        Char.ofNat_toNat]
    · rw [pieceOf, if_neg hunit, textOfPieces?, ih]
      rfl

/-- **A name is read back**, whatever follows it. -/
theorem scan?_documentName (name : String) (gs : Glyphs) :
    Lexeme.scan? ((documentName name).map some ++ gs) = some (.string (some name), gs) := by
  have hpieces := takePieces?_append name.toList gs
  simp only [documentName, List.map_cons, List.map_append, List.map_nil, List.cons_append,
    List.append_assoc, List.nil_append, Lexeme.scan?, hpieces, Option.map_some,
    textOfPieces?_map_pieceOf, String.ofList_toList]

/-! ### Lexemes -/

theorem scan?_of_isDigit {c : Char} (hc : c.isDigit = true) (gs : Glyphs) :
    Lexeme.scan? (some c :: gs)
      = (takeNumber? false (some c :: gs)).map fun found => (.number found.1, found.2) := by
  unfold Lexeme.scan?
  split
  case h_12 => rfl
  all_goals
    next h =>
      obtain rfl := Option.some.inj (List.cons.inj h).1
      cases hc

/-- **A number is read back**, where it ends. -/
theorem scan?_number {n : Numeral} (hn : n.WellWritten) {gs : Glyphs} (hgs : EndsNumber gs) :
    Lexeme.scan? (n.chars.map some ++ gs) = some (.number n, gs) := by
  have hread := takeNumber?_append hn hgs
  obtain ⟨d, cs, hcs, hd⟩ := hn.exists_unsignedChars
  rw [n.chars_eq]
  cases hnegative : n.negative with
  | false =>
    rw [hnegative] at hread
    rw [hcs] at hread ⊢
    change Lexeme.scan? (some d :: (cs.map some ++ gs)) = _
    rw [scan?_of_isDigit hd]
    exact congrArg (Option.map _) hread
  | true =>
    rw [hnegative] at hread
    exact congrArg (Option.map _) hread

theorem lexemes?_nil : lexemes? [] = some [] := by
  rw [lexemes?]
  rfl

/-- The lexeme at the front is the first one, if no space stands before it. -/
theorem lexemes?_of_scan? {gs rest : Glyphs} {l : Lexeme} (hspace : skipSpace gs = gs)
    (h : Lexeme.scan? gs = some (l, rest)) : lexemes? gs = (lexemes? rest).map (l :: ·) := by
  have hne : gs.isEmpty = false := by
    rcases gs with _ | ⟨g, gs⟩
    · cases h
    · rfl
  rw [lexemes?, hspace, hne, if_neg Bool.false_ne_true]
  split
  · next h' => rw [h] at h'; cases h'
  · next l' rest' h' =>
    obtain ⟨rfl, rfl⟩ := Prod.mk.inj (Option.some.inj (h.symm.trans h'))
    rfl

/-! ### Values -/

/-- **The characters denote the value**, wherever they stand. As long as numbers end behind them they
are cut into the same lexemes whatever follows, and these lexemes build the value whatever is being
built around it. -/
def Denotes (cs : List Char) (v : Json) : Prop :=
  ∃ ls,
    (∀ gs, EndsNumber gs → lexemes? (cs.map some ++ gs) = (lexemes? gs).map (ls ++ ·)) ∧
    ∀ stack more, (Builder.value stack).run? (ls ++ more) = (Builder.done v stack).run? more

/-- What denotes a value, taken for a document, is read as it. -/
theorem Denotes.ofGlyphs? {cs : List Char} {v : Json} (h : Denotes cs v) :
    ofGlyphs? (cs.map some) = some v := by
  obtain ⟨ls, hcut, hbuild⟩ := h
  have hlexemes := hcut [] endsNumber_nil
  have hvalue := hbuild [] []
  rw [List.append_nil, lexemes?_nil, Option.map_some] at hlexemes
  rw [List.append_nil] at hvalue
  rw [Json.ofGlyphs?, hlexemes, Option.bind_some, ofLexemes?, List.append_nil, hvalue]
  rfl

theorem denotes_null : Denotes ['n', 'u', 'l', 'l'] .null := by
  refine ⟨[.null], fun gs _ => ?_, fun stack more => rfl⟩
  exact lexemes?_of_scan? rfl rfl

theorem denotes_number {n : Numeral} (hn : n.WellWritten) : Denotes n.chars (.number n) := by
  refine ⟨[.number n], fun gs hgs => ?_, fun stack more => rfl⟩
  refine lexemes?_of_scan? ?_ (scan?_number hn hgs)
  obtain ⟨d, cs, hcs, hd⟩ := hn.exists_unsignedChars
  rw [n.chars_eq]
  cases n.negative with
  | false =>
    have hspace : isSpace d = false := by
      rw [Bool.eq_false_iff]
      intro h
      simp only [isSpace, Bool.or_eq_true, decide_eq_true_eq] at h
      rcases h with ((rfl | rfl) | rfl) | rfl <;> cases hd
    rw [hcs]
    change skipSpace (some d :: (cs.map some ++ gs)) = _
    rw [skipSpace, hspace, if_neg Bool.false_ne_true]
    rfl
  | true => rfl

/-! ### Objects -/

/-- The text of a field with the given text of its value. -/
def fieldChars (field : String × List Char) : List Char :=
  documentName field.1 ++ ':' :: field.2

/-- The texts of fields denote the fields of an object. -/
def DenoteFields : List (String × List Char) → List (String × Json) → Prop :=
  List.Forall₂ fun field member => field.1 = member.1 ∧ Denotes field.2 member.2

/-- The text of a field is cut into its name, a colon and the lexemes of its value. -/
theorem lexemes?_fieldChars {name : String} {cs : List Char} {ls : List Lexeme}
    (hcut : ∀ gs, EndsNumber gs → lexemes? (cs.map some ++ gs) = (lexemes? gs).map (ls ++ ·))
    {gs : Glyphs} (hgs : EndsNumber gs) :
    lexemes? ((fieldChars (name, cs)).map some ++ gs)
      = (lexemes? gs).map fun more => .string (some name) :: .colon :: (ls ++ more) := by
  have hcolon : lexemes? (some ':' :: (cs.map some ++ gs))
      = (lexemes? (cs.map some ++ gs)).map (.colon :: ·) := lexemes?_of_scan? rfl rfl
  rw [fieldChars, List.map_append, List.append_assoc,
    lexemes?_of_scan? rfl (scan?_documentName name _), List.map_cons, List.cons_append, hcolon,
    hcut gs hgs, Option.map_map, Option.map_map]
  rfl

/-- **The fields of an object**, one at least, with the end of the object behind them. What has been
read of the object before may be anything. -/
theorem denotes_fields {fields : List (String × List Char)} {members : List (String × Json)}
    (h : DenoteFields fields members) (hne : fields ≠ []) :
    ∃ ls,
      (∀ gs, lexemes? ((((fields.map fieldChars).intersperse [',']).flatten ++ ['\x7d']).map some
        ++ gs) = (lexemes? gs).map (ls ++ ·)) ∧
      ∀ read mayEnd stack more, (Builder.field read mayEnd stack).run? (ls ++ more)
        = (Builder.done (.object (read.reverse ++ members.map fun m => (some m.1, m.2)))
            stack).run? more := by
  induction h with
  | nil => exact absurd rfl hne
  | @cons field member fields members hfield hfields ih =>
    obtain ⟨name, cs⟩ := field
    obtain ⟨name', v⟩ := member
    obtain ⟨hname, ls, hcut, hbuild⟩ := hfield
    obtain rfl : name = name' := hname
    cases hfields with
    | nil =>
      -- the last field, with the closing brace behind it
      refine ⟨.string (some name) :: .colon :: (ls ++ [.closeBrace]), fun gs => ?_,
        fun read mayEnd stack more => ?_⟩
      · have hends : EndsNumber (some '\x7d' :: gs) :=
          endsNumber_cons rfl (by decide) (by decide) (by decide)
        have hclose : lexemes? (some '\x7d' :: gs) = (lexemes? gs).map (.closeBrace :: ·) :=
          lexemes?_of_scan? rfl rfl
        have htext : (([(name, cs)].map fieldChars).intersperse [',']).flatten ++ ['\x7d']
            = fieldChars (name, cs) ++ ['\x7d'] := by
          simp
        rw [htext, List.map_append, List.append_assoc]
        change lexemes? ((fieldChars (name, cs)).map some ++ some '\x7d' :: gs) = _
        rw [lexemes?_fieldChars hcut hends, hclose, Option.map_map]
        congr 1
        funext more
        simp
      · have hrest := hbuild (.object read (some name) :: stack) (.closeBrace :: more)
        rw [List.cons_append, List.cons_append, List.append_assoc]
        change (Builder.value (.object read (some name) :: stack)).run?
          (ls ++ .closeBrace :: more) = _
        rw [hrest]
        change (Builder.done (.object ((some name, v) :: read).reverse) stack).run? more = _
        rw [List.reverse_cons]
        rfl
    | @cons field' member' fields members hfield' hfields =>
      -- a field with a comma and more fields behind it
      obtain ⟨ls', hcut', hbuild'⟩ := ih (List.cons_ne_nil _ _)
      refine ⟨.string (some name) :: .colon :: (ls ++ .comma :: ls'), fun gs => ?_,
        fun read mayEnd stack more => ?_⟩
      · have hends (gs : Glyphs) : EndsNumber (some ',' :: gs) :=
          endsNumber_cons rfl (by decide) (by decide) (by decide)
        have hcomma (gs : Glyphs) : lexemes? (some ',' :: gs) = (lexemes? gs).map (.comma :: ·) :=
          lexemes?_of_scan? rfl rfl
        have htext : ((((name, cs) :: field' :: fields).map fieldChars).intersperse [',']).flatten
              ++ ['\x7d']
            = fieldChars (name, cs) ++ ',' ::
              ((((field' :: fields).map fieldChars).intersperse [',']).flatten ++ ['\x7d']) := by
          simp
        rw [htext, List.map_append, List.append_assoc, List.map_cons, List.cons_append,
          lexemes?_fieldChars hcut (hends _), hcomma, hcut', Option.map_map, Option.map_map]
        congr 1
        funext more
        simp
      · have hrest := hbuild (.object read (some name) :: stack) (.comma :: (ls' ++ more))
        rw [List.cons_append, List.cons_append, List.append_assoc]
        change (Builder.value (.object read (some name) :: stack)).run?
          (ls ++ .comma :: (ls' ++ more)) = _
        rw [hrest]
        change (Builder.field ((some name, v) :: read) false stack).run? (ls' ++ more) = _
        rw [hbuild', List.reverse_cons, List.append_assoc]
        rfl

/-- The object with the given names and values. -/
def ofMembers (members : List (String × Json)) : Json :=
  .object (members.map fun m => (some m.1, m.2))

/-- **An object denotes an object** whose fields are denoted by their texts. -/
theorem denotes_object {fields : List (String × List Char)} {members : List (String × Json)}
    (h : DenoteFields fields members) : Denotes (documentObject fields) (ofMembers members) := by
  have hopen (gs : Glyphs) : lexemes? (some '\x7b' :: gs) = (lexemes? gs).map (.openBrace :: ·) :=
    lexemes?_of_scan? rfl rfl
  rcases fields with _ | ⟨field, fields⟩
  · cases h
    refine ⟨[.openBrace, .closeBrace], fun gs _ => ?_, fun stack more => rfl⟩
    have hclose : lexemes? (some '\x7d' :: gs) = (lexemes? gs).map (.closeBrace :: ·) :=
      lexemes?_of_scan? rfl rfl
    change lexemes? (some '\x7b' :: some '\x7d' :: gs) = _
    rw [hopen, hclose, Option.map_map]
    rfl
  · obtain ⟨ls, hcut, hbuild⟩ := denotes_fields h (List.cons_ne_nil _ _)
    refine ⟨.openBrace :: ls, fun gs _ => ?_, fun stack more => ?_⟩
    · have htext : documentObject (field :: fields) = '\x7b' ::
          ((((field :: fields).map fieldChars).intersperse [',']).flatten ++ ['\x7d']) := rfl
      rw [htext, List.map_cons, List.cons_append, hopen, hcut, Option.map_map]
      rfl
    · change (Builder.field [] true stack).run? (ls ++ more) = _
      rw [hbuild]
      rfl

end TrustLogic.Json
