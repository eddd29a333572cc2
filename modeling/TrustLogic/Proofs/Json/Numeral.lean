import TrustLogic.Json.Numeral

/-!
# Numbers of documents that read back

A number is written by putting its parts one after the other, and it is read by taking digits as
long as there are any. So every part has to be told from what comes behind it. Behind a number this
is left to the document, and the numbers have to end there: what comes next is no digit, no point and
no letter of an exponent (`TrustLogic.Json.EndsNumber`). Within a number the point and the letter of
the exponent see to it.

Not every number that could be put together is one. Without digits before the point there is none,
and with a zero in front of other digits there is none either (`TrustLogic.Json.Numeral.WellWritten`).
These two are all that can go wrong, by `TrustLogic.Json.takeNumber?_append`.
-/

namespace TrustLogic

theorem natOfDigits_digitsOfNat (n : Nat) : natOfDigits (digitsOfNat n) = n :=
  Nat.ofDigitChars_ten_toDigits

theorem isDigit_of_mem_digitsOfNat {n : Nat} {c : Char} (hc : c ∈ digitsOfNat n) :
    c.isDigit = true :=
  Nat.isDigit_of_mem_toDigits (by decide) (by decide) hc

theorem digitsOfNat_ne_nil (n : Nat) : digitsOfNat n ≠ [] :=
  Nat.toDigits_ne_nil

namespace Json

/-! ### Where numbers end -/

/-- **A number ends here**: what follows is nothing that could belong to it. -/
def EndsNumber (gs : Glyphs) : Prop :=
  ∀ c, gs.head? = some (some c) → c.isDigit = false ∧ c ≠ '.' ∧ c ≠ 'e' ∧ c ≠ 'E'

theorem endsNumber_nil : EndsNumber [] := by
  intro c hc
  cases hc

theorem endsNumber_cons {c : Char} {gs : Glyphs} (hdigit : c.isDigit = false) (hpoint : c ≠ '.')
    (he : c ≠ 'e') (hE : c ≠ 'E') : EndsNumber (some c :: gs) := by
  intro d hd
  obtain rfl := Option.some.inj (Option.some.inj hd)
  exact ⟨hdigit, hpoint, he, hE⟩

/-! ### The parts of a number -/

/-- **All digits at the front are taken**, and no more. -/
theorem takeDigits_append {ds : List Char} (hds : ∀ c ∈ ds, c.isDigit = true) {gs : Glyphs}
    (hgs : ∀ c, gs.head? = some (some c) → c.isDigit = false) :
    takeDigits (ds.map some ++ gs) = (ds, gs) := by
  induction ds with
  | nil =>
    rcases gs with _ | ⟨_ | c, gs⟩
    · rfl
    · rfl
    · simp [takeDigits, hgs c rfl]
  | cons d ds ih =>
    rw [List.forall_mem_cons] at hds
    simp [takeDigits, hds.1, ih hds.2]

theorem takeWhole?_append {ds : List Char} (hds : ∀ c ∈ ds, c.isDigit = true) (hne : ds ≠ [])
    (hzero : ∀ rest, ds = '0' :: rest → rest = []) {gs : Glyphs}
    (hgs : ∀ c, gs.head? = some (some c) → c.isDigit = false) :
    takeWhole? (ds.map some ++ gs) = some (ds, gs) := by
  rw [takeWhole?, takeDigits_append hds hgs]
  split
  · next h => exact absurd (Prod.mk.inj h).1 hne
  · next h => exact absurd (hzero _ (Prod.mk.inj h).1) (List.cons_ne_nil _ _)
  · rfl

theorem takeFraction?_append {ds : List Char} (hds : ∀ c ∈ ds, c.isDigit = true) {gs : Glyphs}
    (hgs : ∀ c, gs.head? = some (some c) → c.isDigit = false ∧ c ≠ '.') :
    takeFraction? ((if ds.isEmpty then [] else '.' :: ds).map some ++ gs) = some (ds, gs) := by
  rcases ds with _ | ⟨d, ds⟩
  · rcases gs with _ | ⟨_ | c, gs⟩
    · rfl
    · rfl
    · have hc := (hgs c rfl).2
      simp [takeFraction?, hc]
  · have htake := takeDigits_append hds fun c hc => (hgs c hc).1
    rw [List.map_cons, List.cons_append] at htake
    simp [takeFraction?, htake]

theorem takeExponent?_append (e : Option Int) {gs : Glyphs} (hgs : EndsNumber gs) :
    takeExponent? ((exponentChars e).map some ++ gs) = some (e, gs) := by
  cases e with
  | none =>
    rcases gs with _ | ⟨_ | c, gs⟩
    · rfl
    · rfl
    · obtain ⟨-, -, he, hE⟩ := hgs c rfl
      simp [exponentChars, takeExponent?, he, hE]
  | some e =>
    have hdigits := takeDigits_append (fun c => isDigit_of_mem_digitsOfNat (n := e.natAbs))
      fun c hc => (hgs c hc).1
    obtain ⟨d, ds, hd⟩ := List.exists_cons_of_ne_nil (digitsOfNat_ne_nil e.natAbs)
    by_cases he : e < 0
    · have hvalue : -(natOfDigits (d :: ds) : Int) = e := by
        rw [← hd, natOfDigits_digitsOfNat]
        omega
      simp only [exponentChars, he, if_true, List.map_cons, List.cons_append, List.nil_append,
        takeExponent?, takeSign, hdigits]
      simp [hd, hvalue]
    · -- without a sign the digits come first, and they are no sign
      have hsign : takeSign ((digitsOfNat e.natAbs).map some ++ gs)
          = (false, (digitsOfNat e.natAbs).map some ++ gs) := by
        have hdigit : d.isDigit = true := isDigit_of_mem_digitsOfNat (hd ▸ List.mem_cons_self)
        have hminus : d ≠ '-' := by
          rintro rfl
          cases hdigit
        have hplus : d ≠ '+' := by
          rintro rfl
          cases hdigit
        simp [hd, takeSign, hminus, hplus]
      have hvalue : (natOfDigits (d :: ds) : Int) = e := by
        rw [← hd, natOfDigits_digitsOfNat]
        omega
      simp only [exponentChars, he, if_false, List.nil_append, List.map_cons, List.cons_append,
        takeExponent?, hsign, hdigits]
      simp [hd, hvalue]

/-! ### Whole numbers -/

/-- **A number is well written** if it has digits before the point, with no zero in front of
others. -/
structure Numeral.WellWritten (n : Numeral) : Prop where
  whole : ∀ c ∈ n.whole, c.isDigit = true
  fraction : ∀ c ∈ n.fraction, c.isDigit = true
  ne_nil : n.whole ≠ []
  zero : ∀ rest, n.whole = '0' :: rest → rest = []

/-- What is written of a number behind its sign. -/
def Numeral.unsignedChars (n : Numeral) : List Char :=
  n.whole ++ ((if n.fraction.isEmpty then [] else '.' :: n.fraction) ++ exponentChars n.exponent)

theorem Numeral.chars_eq (n : Numeral) :
    n.chars = (if n.negative then ['-'] else []) ++ n.unsignedChars := by
  simp only [chars, unsignedChars, List.append_assoc]

/-- Its sign apart, a number that is well written begins with a digit. -/
theorem Numeral.WellWritten.exists_unsignedChars {n : Numeral} (h : n.WellWritten) :
    ∃ d cs, n.unsignedChars = d :: cs ∧ d.isDigit = true := by
  obtain ⟨d, ds, hd⟩ := List.exists_cons_of_ne_nil h.ne_nil
  refine ⟨d, _, by rw [unsignedChars, hd, List.cons_append], h.whole d ?_⟩
  rw [hd]
  exact List.mem_cons_self

/-- **A number that is well written is read as it is**, whatever follows its end. -/
theorem takeNumber?_append {n : Numeral} (h : n.WellWritten) {gs : Glyphs} (hgs : EndsNumber gs) :
    takeNumber? n.negative (n.unsignedChars.map some ++ gs) = some (n, gs) := by
  -- the exponent begins with no digit and no point, and without it neither does what follows
  have hexponent : ∀ c, ((exponentChars n.exponent).map some ++ gs).head? = some (some c) →
      c.isDigit = false ∧ c ≠ '.' := by
    intro c hc
    cases he : n.exponent with
    | none =>
      rw [he] at hc
      exact ⟨(hgs c hc).1, (hgs c hc).2.1⟩
    | some e =>
      rw [he] at hc
      obtain rfl : 'e' = c := Option.some.inj (Option.some.inj hc)
      exact ⟨rfl, by decide⟩
  have hfraction : ∀ c, ((if n.fraction.isEmpty then [] else '.' :: n.fraction).map some ++
      ((exponentChars n.exponent).map some ++ gs)).head? = some (some c) → c.isDigit = false := by
    intro c hc
    rcases hds : n.fraction with _ | ⟨d, ds⟩
    · rw [hds] at hc
      exact (hexponent c hc).1
    · rw [hds] at hc
      obtain rfl : '.' = c := Option.some.inj (Option.some.inj hc)
      rfl
  simp only [Numeral.unsignedChars, List.map_append, List.append_assoc, takeNumber?,
    takeWhole?_append h.whole h.ne_nil h.zero hfraction, Option.bind_some,
    takeFraction?_append h.fraction hexponent, takeExponent?_append n.exponent hgs,
    Option.map_some]

end Json

end TrustLogic
