import Mathlib.Data.List.Induction
import TrustLogic.Degree.Numeral
import TrustLogic.Proofs.Degree.Rounding
import TrustLogic.Proofs.Json.Numeral

/-!
# The digits that a degree is written with

The digits of a degree are found by trying, the shorter ones before the longer ones, and where none
of them read back all digits are taken. Whichever they are, they read back
(`TrustLogic.Degree.rank_shortest`): all digits stand for the degree itself. And the first digit is
no zero (`TrustLogic.Degree.significant_shortest`), as what reads back as anything else than zero
has a first digit that counts. So the digits make a number that a document may hold.

The point is put among the digits or replaced by an exponent, with zeros filled in on both sides of
it, and none of this changes what they stand for
(`TrustLogic.Degree.nearestRank_exactDecimal`). So a reader that rounds the numbers of a document
correctly reads every finite degree back (`TrustLogic.Degree.rounded?_of_numeral?`).
-/

namespace TrustLogic

/-! ### What digits denote -/

open Degree (powerOfTen powerOfTen_add)

theorem natOfDigits_append (cs ds : List Char) :
    natOfDigits (cs ++ ds) = ds.foldl (fun n c => 10 * n + digitValue c) (natOfDigits cs) :=
  List.foldl_append

theorem natOfDigits_append_singleton (cs : List Char) (c : Char) :
    natOfDigits (cs ++ [c]) = 10 * natOfDigits cs + digitValue c :=
  natOfDigits_append cs [c]

theorem natOfDigits_append_zeros (cs : List Char) (n : Nat) :
    natOfDigits (cs ++ List.replicate n '0') = natOfDigits cs * powerOfTen n := by
  induction n with
  | zero =>
    rw [List.replicate_zero, List.append_nil]
    exact (Nat.mul_one _).symm
  | succ n ih =>
    rw [List.replicate_succ', ← List.append_assoc, natOfDigits_append_singleton, ih,
      powerOfTen_add]
    change 10 * (natOfDigits cs * powerOfTen n) + 0 = natOfDigits cs * (powerOfTen n * 10)
    ring

theorem natOfDigits_zeros_append (n : Nat) (cs : List Char) :
    natOfDigits (List.replicate n '0' ++ cs) = natOfDigits cs := by
  have hnil : natOfDigits [] = 0 := rfl
  have hzeros := natOfDigits_append_zeros [] n
  rw [List.nil_append, hnil, Nat.zero_mul] at hzeros
  rw [natOfDigits_append, hzeros]
  rfl

/-- The digits of a number other than zero do not begin with a zero. -/
theorem exists_digitsOfNat {n : Nat} (hn : n ≠ 0) : ∃ d ds, digitsOfNat n = d :: ds ∧ d ≠ '0' := by
  induction n using Nat.strongRecOn with
  | ind n ih =>
    rw [digitsOfNat, Nat.toDigits_eq_if (by decide)]
    split
    · next hlt =>
      have hall : ∀ k < 10, k ≠ 0 → Nat.digitChar k ≠ '0' := by decide
      exact ⟨_, [], rfl, hall n hlt hn⟩
    · obtain ⟨d, ds, hds, hd⟩ := ih (n / 10) (by omega) (by omega)
      refine ⟨d, ds ++ [(n % 10).digitChar], ?_, hd⟩
      rw [← digitsOfNat, hds, List.cons_append]

namespace Degree

namespace Digits

/-! ### The first digit -/

/-- **Digits that count**: there is a first one, and it is no zero. -/
structure Significant (ds : Digits) : Prop where
  digit : ∀ c ∈ ds.digits, c.isDigit = true
  first : ∃ d rest, ds.digits = d :: rest ∧ d ≠ '0'

theorem Significant.ne_nil {ds : Digits} (h : ds.Significant) : ds.digits ≠ [] := by
  obtain ⟨d, rest, hds, -⟩ := h.first
  rw [hds]
  exact List.cons_ne_nil d rest

/-- Zeros are taken away at the end only. -/
theorem dropTrailingZeros_cons {d : Char} (hd : d ≠ '0') (cs : List Char) :
    dropTrailingZeros (d :: cs) = d :: dropTrailingZeros cs := by
  rw [dropTrailingZeros, List.reverse_cons, List.dropWhile_append]
  split
  · next h =>
    rw [dropTrailingZeros, List.isEmpty_iff.mp h]
    simp [hd]
  · rw [List.reverse_append, dropTrailingZeros]
    rfl

theorem mem_of_mem_dropTrailingZeros {c : Char} {cs : List Char} (hc : c ∈ dropTrailingZeros cs) :
    c ∈ cs := by
  rw [dropTrailingZeros, List.mem_reverse] at hc
  exact List.mem_reverse.mp ((List.dropWhile_sublist _).subset hc)

/-- The digits of a decimal other than zero count. -/
theorem significant_ofDecimal {coefficient : Nat} (h : coefficient ≠ 0) (exponent : Int) :
    (ofDecimal coefficient exponent).Significant := by
  obtain ⟨d, ds, hds, hd⟩ := exists_digitsOfNat h
  refine ⟨fun c hc => isDigit_of_mem_digitsOfNat (mem_of_mem_dropTrailingZeros hc),
    d, dropTrailingZeros ds, ?_, hd⟩
  rw [ofDecimal, hds, dropTrailingZeros_cons hd]

/-- A decimal that is read as anything else than zero is not zero. -/
theorem significant_of_rank_ne_zero {coefficient : Nat} {exponent : Int}
    (h : (ofDecimal coefficient exponent).rank ≠ 0) :
    (ofDecimal coefficient exponent).Significant := by
  refine significant_ofDecimal ?_ exponent
  rintro rfl
  exact h rfl

end Digits

open Digits

/-- Both neighbours of a number are decimals. -/
theorem exists_of_mem_neighbours {tie : Tie} {rank places digits : Nat} {ds : Digits}
    (h : ds ∈ neighbours tie rank places digits) :
    ∃ coefficient exponent, ds = Digits.ofDecimal coefficient exponent := by
  simp only [neighbours] at h
  split at h <;> [skip; split at h] <;> simp only [List.mem_cons, List.not_mem_nil, or_false] at h
  all_goals rcases h with rfl | rfl <;> exact ⟨_, _, rfl⟩

/-! ### Taking zeros away -/

namespace Digits

/-- What is taken away are zeros. -/
theorem exists_dropTrailingZeros_append (cs : List Char) :
    ∃ n, dropTrailingZeros cs ++ List.replicate n '0' = cs := by
  refine ⟨(cs.reverse.takeWhile (· = '0')).length, ?_⟩
  have hzeros : List.replicate (cs.reverse.takeWhile (· = '0')).length '0'
      = (cs.reverse.takeWhile (· = '0')).reverse := by
    rw [eq_comm, List.eq_replicate_iff]
    refine ⟨List.length_reverse, fun c hc => ?_⟩
    exact of_decide_eq_true
      (List.all_eq_true.mp List.all_takeWhile c (List.mem_reverse.mp hc))
  rw [dropTrailingZeros, hzeros, ← List.reverse_append, List.takeWhile_append_dropWhile,
    List.reverse_reverse]

/-- The rank of the number nearest to some digits, however far away the point is. -/
def nearest (ds : Digits) : Nat :=
  nearestRank (natOfDigits ds.digits) (ds.places - ds.digits.length)

/-- The digits of a decimal stand for it. -/
theorem nearest_ofDecimal (coefficient : Nat) (exponent : Int) :
    (ofDecimal coefficient exponent).nearest = nearestRank coefficient exponent := by
  obtain ⟨n, hn⟩ := exists_dropTrailingZeros_append (digitsOfNat coefficient)
  have hvalue := congrArg natOfDigits hn
  rw [natOfDigits_append_zeros, natOfDigits_digitsOfNat] at hvalue
  have hlength := congrArg List.length hn
  rw [List.length_append, List.length_replicate] at hlength
  have hplaces : (digitsOfNat coefficient).length + exponent
      - (dropTrailingZeros (digitsOfNat coefficient)).length = n + exponent := by omega
  rw [nearest, ofDecimal]
  dsimp only
  rw [hplaces, ← nearestRank_mul_powerOfTen, hvalue]

end Digits

theorem powerOfFive_mul_powerOfTwo (n : Nat) : powerOfFive n * powerOfTwo n = powerOfTen n :=
  (Nat.mul_pow 5 2 n).symm

/-- All digits of a number stand for it. -/
theorem nearest_allDigits (rank : Nat) : (allDigits rank).nearest = rank := by
  rw [allDigits, Digits.nearest_ofDecimal, nearestRank]
  refine rankOfRatio_eq (powerOfTen_pos _) ?_
  have hnum : ((-1074 : Int)).toNat = 0 := rfl
  have hden : (-(-1074 : Int)).toNat = 1074 := rfl
  have hone : powerOfTen 0 = 1 := rfl
  rw [hnum, hden, hone, unitsPerOne, ← powerOfFive_mul_powerOfTwo 1074]
  ring

/-! ### The digits that are found -/

/-- Digits read back as a finite number exactly if they stand for it. -/
theorem rank_eq_iff {ds : Digits} {rank : Nat} (hfinite : rank < infinityRank) :
    ds.rank = rank ↔ ds.nearest = rank :=
  rankOfDecimal_eq_iff hfinite

section

variable (tie : Tie) {rank : Nat}

/-- **A number is written with digits that read back.** -/
theorem rank_shortest (hfinite : rank < infinityRank) : (shortest tie rank).rank = rank :=
  rank_firstReadingBack ((rank_eq_iff hfinite).mpr (nearest_allDigits rank))

/-- The digits of a number are those of some decimal. -/
theorem exists_shortest_eq (rank : Nat) : ∃ coefficient exponent,
    shortest tie rank = Digits.ofDecimal coefficient exponent := by
  rw [shortest, firstReadingBack]
  cases hfound : (List.range' 1 17).findSome? fun digits =>
      (neighbours tie rank (placesOfRank rank) digits).find? fun ds => ds.rank = rank with
  | none => exact ⟨_, _, rfl⟩
  | some ds =>
    obtain ⟨digits, -, hds⟩ := List.exists_of_findSome?_eq_some hfound
    exact exists_of_mem_neighbours (List.mem_of_find?_eq_some hds)

/-- **The digits of a number other than zero count**, since a decimal that is zero does not read
back as the number. -/
theorem significant_shortest (hzero : rank ≠ 0) (hfinite : rank < infinityRank) :
    (shortest tie rank).Significant := by
  have hrank := rank_shortest tie hfinite
  obtain ⟨coefficient, exponent, hdecimal⟩ := exists_shortest_eq tie rank
  rw [hdecimal] at hrank ⊢
  exact significant_of_rank_ne_zero fun h => hzero (hrank.symm.trans h)

end

/-! ### The number that is written -/

theorem isDigit_of_mem_zeros {n : Nat} {c : Char} (hc : c ∈ List.replicate n '0') :
    c.isDigit = true := by
  rw [List.eq_of_mem_replicate hc]
  rfl

namespace Digits.Significant

variable {ds : Digits} {c : Char}

theorem isDigit_of_mem_whole (h : ds.Significant) (hc : c ∈ ds.whole) : c.isDigit = true := by
  rw [Digits.whole] at hc
  split at hc
  · exact isDigit_of_mem_zeros (n := 1) hc
  · rcases List.mem_append.mp hc with hc | hc
    · exact h.digit c (List.mem_of_mem_take hc)
    · exact isDigit_of_mem_zeros hc

theorem isDigit_of_mem_fraction (h : ds.Significant) (hc : c ∈ ds.fraction) :
    c.isDigit = true := by
  rcases List.mem_append.mp hc with hc | hc
  · exact isDigit_of_mem_zeros hc
  · exact h.digit c (List.mem_of_mem_drop hc)

/-- Before the point there is a zero alone, or the first digit and others. -/
theorem whole_eq_or (h : ds.Significant) :
    ds.whole = ['0'] ∨ ∃ d rest, ds.whole = d :: rest ∧ d ≠ '0' := by
  obtain ⟨d, rest, hds, hd⟩ := h.first
  rw [Digits.whole]
  cases hplaces : ds.places.toNat with
  | zero => exact .inl rfl
  | succ n => exact .inr ⟨d, _, by rw [if_neg (Nat.succ_ne_zero n), hds]; rfl, hd⟩

/-- Digits that count are written as a number, wherever the point is put. -/
theorem wellWritten (h : ds.Significant) (negative : Bool) : (ds.numeral negative).WellWritten := by
  rw [Digits.numeral]
  split
  · refine ⟨fun c hc => h.isDigit_of_mem_whole hc, fun c hc => ?_, ?_, fun zeros hz => ?_⟩
    · dsimp only at hc
      split at hc
      · exact isDigit_of_mem_zeros (n := 1) hc
      · exact h.isDigit_of_mem_fraction hc
    · rcases h.whole_eq_or with hwhole | ⟨d, rest, hwhole, -⟩ <;> rw [hwhole] <;>
        exact List.cons_ne_nil _ _
    · rcases h.whole_eq_or with hwhole | ⟨d, rest, hwhole, hd⟩ <;> rw [hwhole] at hz
      · exact (List.cons.inj hz).2.symm
      · exact absurd (List.cons.inj hz).1 hd
  · obtain ⟨d, rest, hds, hd⟩ := h.first
    refine ⟨fun c hc => h.digit c (List.mem_of_mem_take hc),
      fun c hc => h.digit c (List.mem_of_mem_drop hc), ?_, fun zeros hz => ?_⟩
    · rw [hds]
      exact List.cons_ne_nil _ _
    · rw [hds] at hz
      exact absurd (List.cons.inj hz).1 hd

end Digits.Significant

/-- **The number that a degree is written as is well written.** -/
theorem wellWritten_of_numeral? {x : Degree} {n : Json.Numeral} (h : x.numeral? = some n) :
    n.WellWritten := by
  rcases x with _ | ⟨negative, rank⟩
  · cases h
  · obtain ⟨hfinite, rfl⟩ := Option.ite_some_none_eq_some.mp h
    rw [documentDigits]
    split
    · exact ⟨by simp [Digits.numeral, Digits.whole], by simp [Digits.numeral, Digits.fraction],
        by simp [Digits.numeral, Digits.whole], by simp [Digits.numeral, Digits.whole]⟩
    · next hzero => exact (significant_shortest .even hzero hfinite).wellWritten negative

/-! ### The decimal that is written -/

/-- The decimal that a number stands for. -/
def exactDecimal (n : Json.Numeral) : Decimal :=
  Decimal.ofDigits n.negative n.whole n.fraction (n.exponent.getD 0)

/-- **The number that digits are written as stands for them**, wherever the point is put. -/
theorem nearestRank_exactDecimal {ds : Digits} (hds : ds.digits ≠ []) (negative : Bool) :
    nearestRank (exactDecimal (ds.numeral negative)).coefficient
      (exactDecimal (ds.numeral negative)).exponent = ds.nearest := by
  have hlength := List.length_pos_iff.mpr hds
  rw [Digits.numeral]
  split
  · next hpoint =>
    simp only [exactDecimal, Decimal.ofDigits, Option.getD_none, Digits.nearest]
    rcases Int.lt_or_le ds.places 1 with hsmall | hlarge
    · -- zeros with the point among them, and the digits
      have hplaces : ds.places.toNat = 0 := by omega
      have hwhole : ds.whole = ['0'] := by simp [Digits.whole, hplaces]
      have hfraction : ds.fraction = List.replicate (-ds.places).toNat '0' ++ ds.digits := by
        rw [Digits.fraction, hplaces, List.drop_zero]
      have hzeros : ['0'] ++ (List.replicate (-ds.places).toNat '0' ++ ds.digits)
          = List.replicate ((-ds.places).toNat + 1) '0' ++ ds.digits := rfl
      rw [if_neg (by simp [hfraction, hds]), hwhole, hfraction, hzeros, natOfDigits_zeros_append,
        List.length_append, List.length_replicate]
      congr 1
      omega
    · have hplaces : ds.places.toNat ≠ 0 := by omega
      have hzeros : (-ds.places).toNat = 0 := by omega
      have hfraction : ds.fraction = ds.digits.drop ds.places.toNat := by
        rw [Digits.fraction, hzeros]
        rfl
      rw [Digits.whole, if_neg hplaces, hfraction]
      rcases Nat.lt_or_ge ds.places.toNat ds.digits.length with hlt | hge
      · -- digits with the point among them
        have hnone : ds.places.toNat - ds.digits.length = 0 := by omega
        rw [if_neg (by simpa using hlt), hnone, List.replicate_zero, List.append_nil,
          List.take_append_drop, List.length_drop]
        congr 1
        omega
      · -- digits, zeros up to the point, and one behind it
        have hpad : ds.digits ++ List.replicate (ds.places.toNat - ds.digits.length) '0' ++ ['0']
            = ds.digits ++ List.replicate (ds.places.toNat - ds.digits.length + 1) '0' := by
          rw [List.append_assoc, List.replicate_succ']
        rw [if_pos (by simpa using hge), List.take_of_length_le hge, hpad,
          natOfDigits_append_zeros, nearestRank_mul_powerOfTen, List.length_singleton]
        congr 1
        omega
  · simp only [exactDecimal, Decimal.ofDigits, Option.getD_some]
    rw [List.take_append_drop, List.length_drop, Digits.nearest]
    congr 1
    omega

/-! ### Reading numbers correctly -/

/-- The degree nearest to a number of a document, unless that is beyond all numbers. -/
def rounded? (n : Json.Numeral) : Option Degree :=
  let x := ofDecimal (exactDecimal n)
  if x.isFinite then some x else none

/-- Digits are written with their sign. -/
theorem negative_exactDecimal_numeral (negative : Bool) (ds : Digits) :
    (exactDecimal (ds.numeral negative)).negative = negative := by
  rw [Digits.numeral]
  split <;> rfl

theorem number_eq_ofRank (negative : Bool) (rank : Fin (infinityRank + 1)) :
    number negative rank = ofRank negative rank := by
  rw [ofRank, number.injEq]
  exact ⟨rfl, Fin.ext (Nat.min_eq_left (Nat.le_of_lt_succ rank.isLt)).symm⟩

/-- **Every finite degree is read back** from the number that it is written as, zero with its
sign. -/
theorem rounded?_of_numeral? {x : Degree} {n : Json.Numeral} (h : x.numeral? = some n) :
    rounded? n = some x := by
  rcases x with _ | ⟨negative, rank⟩
  · cases h
  · obtain ⟨hfinite, rfl⟩ := Option.ite_some_none_eq_some.mp h
    have hrank : rankOfDecimal
        (exactDecimal ((documentDigits rank).numeral negative)).coefficient
        (exactDecimal ((documentDigits rank).numeral negative)).exponent = rank := by
      rw [documentDigits]
      split
      · next hzero =>
        rw [hzero]
        rfl
      · next hzero =>
        have hdigits := significant_shortest .even hzero hfinite
        rw [rankOfDecimal_eq_iff hfinite, nearestRank_exactDecimal hdigits.ne_nil,
          ← rank_eq_iff hfinite, rank_shortest .even hfinite]
    rw [rounded?, ofDecimal, hrank, negative_exactDecimal_numeral, ← number_eq_ofRank]
    exact if_pos (decide_eq_true hfinite)

end Degree

end TrustLogic
