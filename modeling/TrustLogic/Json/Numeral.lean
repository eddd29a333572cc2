import TrustLogic.Text.Digits
import TrustLogic.Text.Utf8

/-!
# Numbers of JSON as they are written

What a number of a document stands for is up to its reader: an integer and a degree are read from
it in different ways. So a number is kept as it is written, cut into its parts.

* `Numeral` – a number as it is written.
* `takeNumber?` – the number that some characters begin with; what remains is shorter
  (`length_of_takeNumber?`).
* `Numeral.chars` – the characters of a number.
-/

namespace TrustLogic.Json

/-- A number as it is written. -/
structure Numeral where
  /-- Whether a minus sign stands before it. -/
  negative : Bool
  /-- The digits before the point. -/
  whole : List Char
  /-- The digits after the point; without any there is no point. -/
  fraction : List Char
  /-- The exponent, if one is written. -/
  exponent : Option Int
deriving DecidableEq, Repr

/-! ### Reading -/

/-- The digits at the front, and what follows them. -/
def takeDigits : Glyphs → List Char × Glyphs
  | some c :: rest =>
    if c.isDigit then
      let found := takeDigits rest
      (c :: found.1, found.2)
    else ([], some c :: rest)
  | gs => ([], gs)

/-- The digits before the point: a zero, or digits that do not begin with one. -/
def takeWhole? (gs : Glyphs) : Option (List Char × Glyphs) :=
  match takeDigits gs with
  | ([], _) => none
  | ('0' :: _ :: _, _) => none
  | found => some found

/-- A point with digits after it, or nothing where there is no point. -/
def takeFraction? : Glyphs → Option (List Char × Glyphs)
  | some '.' :: rest =>
    match takeDigits rest with
    | ([], _) => none
    | found => some found
  | gs => some ([], gs)

/-- A sign, and what follows it. -/
def takeSign : Glyphs → Bool × Glyphs
  | some '-' :: rest => (true, rest)
  | some '+' :: rest => (false, rest)
  | gs => (false, gs)

/-- An exponent, or nothing where there is none. -/
def takeExponent? : Glyphs → Option (Option Int × Glyphs)
  | some c :: rest =>
    if c = 'e' ∨ c = 'E' then
      match takeDigits (takeSign rest).2 with
      | ([], _) => none
      | (ds, rest') =>
        let value : Int := natOfDigits ds
        some (some (if (takeSign rest).1 then -value else value), rest')
    else some (none, some c :: rest)
  | gs => some (none, gs)

/-- A number without its sign. -/
def takeNumber? (negative : Bool) (gs : Glyphs) : Option (Numeral × Glyphs) :=
  (takeWhole? gs).bind fun (whole, gs) =>
    (takeFraction? gs).bind fun (fraction, gs) =>
      (takeExponent? gs).map fun (exponent, gs) => (⟨negative, whole, fraction, exponent⟩, gs)

/-! ### Writing -/

/-- The characters of an exponent. -/
def exponentChars : Option Int → List Char
  | none => []
  | some e => 'e' :: ((if e < 0 then ['-'] else []) ++ digitsOfNat e.natAbs)

/-- The characters of a number. -/
def Numeral.chars (n : Numeral) : List Char :=
  (if n.negative then ['-'] else []) ++ n.whole ++
    (if n.fraction.isEmpty then [] else '.' :: n.fraction) ++ exponentChars n.exponent

/-! ### What remains is shorter -/

theorem length_takeDigits (gs : Glyphs) :
    (takeDigits gs).1.length + (takeDigits gs).2.length = gs.length := by
  fun_induction takeDigits gs with
  | case1 c rest hc found ih =>
    rw [List.length_cons, List.length_cons, Nat.add_right_comm]
    exact congrArg (· + 1) ih
  | case2 c rest hc => simp
  | case3 gs hgs => simp

theorem length_of_takeWhole? {gs rest : Glyphs} {ds : List Char}
    (h : takeWhole? gs = some (ds, rest)) : rest.length < gs.length := by
  have hlen := length_takeDigits gs
  unfold takeWhole? at h
  split at h
  · simp at h
  · simp at h
  · next hne _ =>
    rw [Option.some.inj h] at hlen
    dsimp only at hlen
    have : ds ≠ [] := fun hd => hne rest (by rw [Option.some.inj h, hd])
    have := List.length_pos_iff.2 this
    omega

theorem length_of_takeFraction? {gs rest : Glyphs} {ds : List Char}
    (h : takeFraction? gs = some (ds, rest)) : rest.length ≤ gs.length := by
  unfold takeFraction? at h
  split at h
  · next rest' =>
    have hlen := length_takeDigits rest'
    split at h
    · simp at h
    · rw [Option.some.inj h] at hlen
      dsimp only at hlen
      simp only [List.length_cons]
      omega
  · obtain ⟨-, rfl⟩ := Prod.mk.inj (Option.some.inj h)
    exact Nat.le_refl _

theorem length_takeSign (gs : Glyphs) : (takeSign gs).2.length ≤ gs.length := by
  unfold takeSign
  split <;> simp

theorem length_of_takeExponent? {gs rest : Glyphs} {e : Option Int}
    (h : takeExponent? gs = some (e, rest)) : rest.length ≤ gs.length := by
  unfold takeExponent? at h
  split at h
  · next c rest' =>
    have hlen := length_takeDigits (takeSign rest').2
    have hsign := length_takeSign rest'
    split at h
    · split at h
      · simp at h
      · next ds rest'' hds =>
        obtain ⟨-, rfl⟩ := Prod.mk.inj (Option.some.inj h)
        rw [hds] at hlen
        simp only [List.length_cons]
        simp only at hlen
        omega
    · obtain ⟨-, rfl⟩ := Prod.mk.inj (Option.some.inj h)
      exact Nat.le_refl _
  · obtain ⟨-, rfl⟩ := Prod.mk.inj (Option.some.inj h)
    exact Nat.le_refl _

theorem length_of_takeNumber? {negative : Bool} {gs rest : Glyphs} {n : Numeral}
    (h : takeNumber? negative gs = some (n, rest)) : rest.length < gs.length := by
  unfold takeNumber? at h
  obtain ⟨⟨whole, gs₁⟩, h₁, h⟩ := Option.bind_eq_some_iff.1 h
  obtain ⟨⟨fraction, gs₂⟩, h₂, h⟩ := Option.bind_eq_some_iff.1 h
  obtain ⟨⟨exponent, gs₃⟩, h₃, h⟩ := Option.map_eq_some_iff.1 h
  obtain ⟨-, rfl⟩ := Prod.mk.inj h
  have := length_of_takeWhole? h₁
  have := length_of_takeFraction? h₂
  have := length_of_takeExponent? h₃
  omega

end TrustLogic.Json
