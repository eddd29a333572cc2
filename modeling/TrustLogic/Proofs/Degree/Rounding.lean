import Mathlib.Tactic.Linarith
import Mathlib.Tactic.Ring
import TrustLogic.Degree.Decimal

/-!
# Rounding

A ratio is rounded twice in one: first it is told which power of two it lies above, and then it is
rounded to a multiple of the distance that numbers have there. Two things are to be known of this.
A number that can be represented is rounded to itself (`TrustLogic.Degree.rankOfRatio_eq`), and of
two ratios the greater one is not rounded to the lesser number
(`TrustLogic.Degree.rankOfRatio_mono`). The second one says in particular that a ratio is rounded
the same however it is expanded.

Both are easy within one power of two, where rounding is that of natural numbers. What is between
two powers of two is rounded to the power above at most, and the ranks are counted such that this is
the first one of the next.

A decimal is a ratio, but one that is too great or too small is not calculated. The order of ratios
says that nothing is lost by this (`TrustLogic.Degree.rankOfDecimal_eq_iff`).
-/

namespace TrustLogic.Degree

/-! ### Rounding to a natural number -/

/-- **What a ratio has to exceed** to be rounded to a natural number other than zero: half of the
way to it, or no more than that if it is even. -/
theorem succ_le_roundRatio_iff {num den m : Nat} (hden : 0 < den) :
    m + 1 ≤ roundRatio num den ↔
      (2 * m + 1) * den < 2 * num ∨ (2 * m + 1) * den = 2 * num ∧ m % 2 = 1 := by
  have hnum := Nat.div_add_mod num den
  have hr := Nat.mod_lt num hden
  rw [roundRatio]
  generalize num / den = q at hnum ⊢
  generalize num % den = r at hnum hr ⊢
  obtain hlt | rfl | hgt := Nat.lt_trichotomy m q
  · -- it exceeds the number by more than half
    have hq : den * (m + 1) ≤ den * q := Nat.mul_le_mul_left den hlt
    have hround : m + 1 ≤ if 2 * r < den then q else if den < 2 * r then q + 1
        else if q % 2 = 0 then q else q + 1 := by
      split <;> [skip; split <;> [skip; split]] <;> omega
    refine iff_of_true hround (.inl ?_)
    linarith
  · -- it lies in between, and the halves are compared
    have hhalf : 2 * num = 2 * (den * m) + 2 * r := by omega
    have hodd : (2 * m + 1) * den = 2 * (den * m) + den := by ring
    rw [hhalf, hodd]
    split <;> [skip; split <;> [skip; split]] <;> omega
  · -- it falls short of the number by more than half
    have hq : den * (q + 1) ≤ den * m := Nat.mul_le_mul_left den hgt
    have hround : ¬ m + 1 ≤ if 2 * r < den then q else if den < 2 * r then q + 1
        else if q % 2 = 0 then q else q + 1 := by
      split <;> [skip; split <;> [skip; split]] <;> omega
    refine iff_of_false hround ?_
    rintro (h | ⟨h, -⟩) <;> linarith

/-- **Rounding keeps the order.** -/
theorem roundRatio_mono {num den num' den' : Nat} (hden : 0 < den) (hden' : 0 < den')
    (h : num * den' ≤ num' * den) : roundRatio num den ≤ roundRatio num' den' := by
  cases hround : roundRatio num den with
  | zero => exact Nat.zero_le _
  | succ m =>
    have hm := (succ_le_roundRatio_iff hden).mp (Nat.le_of_eq hround.symm)
    rw [succ_le_roundRatio_iff hden']
    -- whatever the one exceeds, the other one exceeds
    have hle : (2 * m + 1) * den' * den ≤ 2 * num' * den := by
      have hhalf : (2 * m + 1) * den ≤ 2 * num := by omega
      have := Nat.mul_le_mul_right den' hhalf
      linarith
    rcases Nat.lt_or_eq_of_le (Nat.le_of_mul_le_mul_right hle hden) with hlt | heq
    · exact .inl hlt
    · refine .inr ⟨heq, ?_⟩
      obtain hlt | ⟨-, hodd⟩ := hm
      · have := Nat.mul_lt_mul_of_pos_right hlt hden'
        have hden₂ : (2 * m + 1) * den' * den = 2 * num' * den := by rw [heq]
        linarith
      · exact hodd

theorem roundRatio_mul_self (n : Nat) {den : Nat} (hden : 0 < den) :
    roundRatio (n * den) den = n := by
  rw [roundRatio, Nat.mul_div_cancel _ hden, Nat.mul_mod_left]
  exact if_pos (by omega)

/-! ### Rounding to a number -/

theorem powerCount_eq : powerCount = 2 ^ 52 := rfl

theorem powerOfTwo_pos (n : Nat) : 0 < powerOfTwo n := Nat.pow_pos (by decide)

theorem powerOfTen_pos (n : Nat) : 0 < powerOfTen n := Nat.pow_pos (by decide)

/-- The power of two from which on numbers have the distance that they have around a multiple of the
smallest positive number, counted from the smallest distance on. -/
def spacing (units : Nat) : Nat := units.log2 - 52

theorem spacing_mono {m n : Nat} (h : m ≤ n) : spacing m ≤ spacing n := by
  have hlog : m.log2 ≤ n.log2 := by
    rcases Nat.eq_zero_or_pos m with rfl | hm
    · exact Nat.zero_le _
    · exact (Nat.le_log2 (by omega)).mpr ((Nat.log2_self_le (by omega)).trans h)
  exact Nat.sub_le_sub_right hlog 52

theorem lt_of_spacing (n : Nat) : n < 2 * powerCount * powerOfTwo (spacing n) := by
  have hpower : 2 * powerCount * powerOfTwo (spacing n) = 2 ^ (53 + spacing n) := by
    rw [powerCount_eq, powerOfTwo, Nat.pow_add]
    rfl
  rw [hpower]
  refine Nat.lt_log2_self.trans_le (Nat.pow_le_pow_right (by decide) ?_)
  rw [spacing]
  omega

theorem le_of_spacing {n : Nat} (h : spacing n ≠ 0) :
    powerCount * powerOfTwo (spacing n) ≤ n := by
  have hpower : powerCount * powerOfTwo (spacing n) = 2 ^ (52 + spacing n) := by
    rw [powerCount_eq, powerOfTwo, Nat.pow_add]
    rfl
  have hn : n ≠ 0 := by
    rintro rfl
    exact h rfl
  rw [hpower, ← Nat.le_log2 hn]
  rw [spacing] at h ⊢
  omega

theorem rankOfRatio_def (num den : Nat) :
    rankOfRatio num den = spacing (num * unitsPerOne / den) * powerCount +
      roundRatio (num * unitsPerOne) (den * powerOfTwo (spacing (num * unitsPerOne / den))) := rfl

section

variable {num den : Nat}

/-- A ratio is rounded to the next power of two at most. -/
theorem rankOfRatio_le (hden : 0 < den) :
    rankOfRatio num den ≤ (spacing (num * unitsPerOne / den) + 2) * powerCount := by
  rw [rankOfRatio_def]
  generalize num * unitsPerOne = units
  have hlt := lt_of_spacing (units / den)
  generalize spacing (units / den) = k at hlt ⊢
  have hround : roundRatio units (den * powerOfTwo k) ≤ roundRatio (2 * powerCount * 1) 1 := by
    refine roundRatio_mono (Nat.mul_pos hden (powerOfTwo_pos k)) Nat.one_pos ?_
    rw [Nat.div_lt_iff_lt_mul hden] at hlt
    linarith
  rw [roundRatio_mul_self _ Nat.one_pos] at hround
  linarith

/-- A ratio is rounded to the power of two below it at least. -/
theorem le_rankOfRatio (hden : 0 < den) (hk : spacing (num * unitsPerOne / den) ≠ 0) :
    (spacing (num * unitsPerOne / den) + 1) * powerCount ≤ rankOfRatio num den := by
  rw [rankOfRatio_def]
  generalize num * unitsPerOne = units at hk ⊢
  have hle := le_of_spacing hk
  generalize spacing (units / den) = k at hle ⊢
  have hround : roundRatio (powerCount * 1) 1 ≤ roundRatio units (den * powerOfTwo k) := by
    refine roundRatio_mono Nat.one_pos (Nat.mul_pos hden (powerOfTwo_pos k)) ?_
    rw [Nat.le_div_iff_mul_le hden] at hle
    linarith
  rw [roundRatio_mul_self _ Nat.one_pos] at hround
  linarith

end

/-- **Rounding keeps the order**, also across powers of two. -/
theorem rankOfRatio_mono {num den num' den' : Nat} (hden : 0 < den) (hden' : 0 < den')
    (h : num * den' ≤ num' * den) : rankOfRatio num den ≤ rankOfRatio num' den' := by
  have hunits : num * unitsPerOne * den' ≤ num' * unitsPerOne * den := by
    have := Nat.mul_le_mul_right unitsPerOne h
    linarith
  have hquotient : num * unitsPerOne / den ≤ num' * unitsPerOne / den' := by
    rw [Nat.le_div_iff_mul_le hden']
    refine Nat.le_of_mul_le_mul_right ?_ hden
    have := Nat.mul_le_mul_right den' (Nat.div_mul_le_self (num * unitsPerOne) den)
    linarith
  rcases Nat.lt_or_eq_of_le (spacing_mono hquotient) with hlt | heq
  · have hle : rankOfRatio num den ≤ _ := rankOfRatio_le hden
    have hge := le_rankOfRatio hden' (Nat.ne_of_gt (Nat.zero_lt_of_lt hlt))
    have hpowers := Nat.mul_le_mul_right powerCount (Nat.add_le_add_right hlt 1)
    exact hle.trans (hpowers.trans hge)
  · rw [rankOfRatio_def, rankOfRatio_def, heq]
    refine Nat.add_le_add_left (roundRatio_mono (Nat.mul_pos hden (powerOfTwo_pos _))
      (Nat.mul_pos hden' (powerOfTwo_pos _)) ?_) _
    have := Nat.mul_le_mul_right (powerOfTwo (spacing (num' * unitsPerOne / den'))) hunits
    linarith

/-- Ratios are rounded the same however they are expanded. -/
theorem rankOfRatio_congr {num den num' den' : Nat} (hden : 0 < den) (hden' : 0 < den')
    (h : num * den' = num' * den) : rankOfRatio num den = rankOfRatio num' den' :=
  Nat.le_antisymm (rankOfRatio_mono hden hden' h.le) (rankOfRatio_mono hden' hden h.ge)

/-- **A number is rounded to itself.** -/
theorem rankOfRatio_eq {num den rank : Nat} (hden : 0 < den)
    (h : num * unitsPerOne = unitsOfRank rank * den) : rankOfRatio num den = rank := by
  rw [rankOfRatio_def, h, Nat.mul_div_cancel _ hden, unitsOfRank]
  split
  · next hrank =>
    have hspacing : spacing rank = 0 := by
      by_contra hne
      have hle := le_of_spacing hne
      have := Nat.le_mul_of_pos_right powerCount (powerOfTwo_pos (spacing rank))
      omega
    have hone : den * powerOfTwo 0 = den := Nat.mul_one den
    rw [hspacing, Nat.zero_mul, Nat.zero_add, hone, roundRatio_mul_self rank hden]
  · next hrank =>
    have hdiv := Nat.div_add_mod rank powerCount
    have hmod := Nat.mod_lt rank (show 0 < powerCount by decide)
    have hpos : 0 < rank / powerCount := Nat.div_pos (by omega) (by decide)
    generalize rank / powerCount = q at hdiv hpos ⊢
    generalize rank % powerCount = r at hdiv hmod ⊢
    have hspacing : spacing ((powerCount + r) * powerOfTwo (q - 1)) = q - 1 := by
      have hlow : 2 ^ (52 + (q - 1)) = powerCount * powerOfTwo (q - 1) := by
        rw [powerCount_eq, powerOfTwo, Nat.pow_add]
        rfl
      have hhigh : 2 ^ (52 + (q - 1) + 1) = 2 * powerCount * powerOfTwo (q - 1) := by
        rw [Nat.pow_succ, hlow]
        ring
      have hlog : ((powerCount + r) * powerOfTwo (q - 1)).log2 = 52 + (q - 1) := by
        rw [Nat.log2_eq_iff (Nat.ne_of_gt (Nat.mul_pos (by omega) (powerOfTwo_pos _))), hlow, hhigh]
        exact ⟨Nat.mul_le_mul_right _ (by omega),
          Nat.mul_lt_mul_of_pos_right (by omega) (powerOfTwo_pos _)⟩
      rw [spacing, hlog]
      omega
    have hround : (powerCount + r) * powerOfTwo (q - 1) * den =
        (powerCount + r) * (den * powerOfTwo (q - 1)) := by ring
    rw [hspacing, hround, roundRatio_mul_self _ (Nat.mul_pos hden (powerOfTwo_pos _))]
    obtain ⟨p, rfl⟩ := Nat.exists_eq_add_of_le' hpos
    rw [Nat.add_sub_cancel]
    linarith

/-! ### The number nearest to a decimal -/

theorem powerOfTen_mono {m n : Nat} (h : m ≤ n) : powerOfTen m ≤ powerOfTen n :=
  Nat.pow_le_pow_right (by decide) h

theorem powerOfTen_add (m n : Nat) : powerOfTen (m + n) = powerOfTen m * powerOfTen n :=
  Nat.pow_add 10 m n

/-- The rank of the number nearest to a decimal, however far away its point is. -/
def nearestRank (coefficient : Nat) (exponent : Int) : Nat :=
  rankOfRatio (coefficient * powerOfTen exponent.toNat) (powerOfTen (-exponent).toNat)

section

variable {coefficient rank : Nat} {exponent : Int}

theorem lt_powerOfTen_length (n : Nat) : n < powerOfTen (digitsOfNat n).length :=
  (Nat.length_toDigits_le_iff (by decide) Nat.length_toDigits_pos).mp (Nat.le_refl _)

theorem powerOfTen_le_of_lt_length {n k : Nat} (hn : n ≠ 0) (h : k < (digitsOfNat n).length) :
    powerOfTen k ≤ n := by
  rcases Nat.eq_zero_or_pos k with rfl | hk
  · exact Nat.one_le_iff_ne_zero.mpr hn
  · by_contra hlt
    exact Nat.not_le_of_lt h
      ((Nat.length_toDigits_le_iff (by decide) hk).mpr (Nat.lt_of_not_le hlt))

/-- A decimal of more than 310 places before the point is beyond all numbers. -/
theorem le_nearestRank_of_places (hzero : coefficient ≠ 0)
    (h : 310 < (digitsOfNat coefficient).length + exponent) :
    infinityRank ≤ nearestRank coefficient exponent := by
  have hbeyond : infinityRank ≤ rankOfRatio (powerOfTen 310) 1 := by decide +kernel
  refine hbeyond.trans (rankOfRatio_mono Nat.one_pos (powerOfTen_pos _) ?_)
  have hcoefficient : powerOfTen ((digitsOfNat coefficient).length - 1) ≤ coefficient :=
    powerOfTen_le_of_lt_length hzero (Nat.sub_lt Nat.length_toDigits_pos Nat.one_pos)
  rw [Nat.mul_one, ← powerOfTen_add]
  calc powerOfTen (310 + (-exponent).toNat)
      ≤ powerOfTen ((digitsOfNat coefficient).length - 1 + exponent.toNat) :=
        powerOfTen_mono (by omega)
    _ ≤ coefficient * powerOfTen exponent.toNat := by
      rw [powerOfTen_add]
      exact Nat.mul_le_mul_right _ hcoefficient

/-- A decimal of more than 330 zeros after the point is nearest to zero. -/
theorem nearestRank_of_places (h : (digitsOfNat coefficient).length + exponent < -330) :
    nearestRank coefficient exponent = 0 := by
  have hzero : rankOfRatio 1 (powerOfTen 330) = 0 := by decide +kernel
  refine Nat.eq_zero_of_le_zero
    ((rankOfRatio_mono (powerOfTen_pos _) (powerOfTen_pos 330) ?_).trans hzero.le)
  have hcoefficient := (lt_powerOfTen_length coefficient).le
  calc coefficient * powerOfTen exponent.toNat * powerOfTen 330
      ≤ powerOfTen (digitsOfNat coefficient).length * powerOfTen exponent.toNat
        * powerOfTen 330 := Nat.mul_le_mul_right _ (Nat.mul_le_mul_right _ hcoefficient)
    _ = powerOfTen ((digitsOfNat coefficient).length + exponent.toNat + 330) := by
      rw [powerOfTen_add, powerOfTen_add]
    _ ≤ powerOfTen (-exponent).toNat := powerOfTen_mono (by omega)
    _ = 1 * powerOfTen (-exponent).toNat := (Nat.one_mul _).symm

/-- **A decimal is read as the number nearest to it**, if this is finite. So it does no harm that
decimals whose point is far away are not calculated. -/
theorem rankOfDecimal_eq_iff (hfinite : rank < infinityRank) :
    rankOfDecimal coefficient exponent = rank ↔ nearestRank coefficient exponent = rank := by
  rw [rankOfDecimal]
  split
  · next hcoefficient =>
    have hnearest : nearestRank coefficient exponent = 0 := by
      refine rankOfRatio_eq (powerOfTen_pos _) ?_
      have hunits : unitsOfRank 0 = 0 := rfl
      rw [hcoefficient, hunits, Nat.zero_mul, Nat.zero_mul, Nat.zero_mul]
    rw [hnearest]
  · next hcoefficient =>
    dsimp only
    split
    · next hplaces =>
      have := le_nearestRank_of_places hcoefficient hplaces
      omega
    · split
      · next hplaces => rw [nearestRank_of_places hplaces]
      · split
        · next hexponent =>
          have hden : (-exponent).toNat = 0 := by omega
          rw [nearestRank, hden]
          rfl
        · next hexponent =>
          have hnum : exponent.toNat = 0 := by omega
          have hone : powerOfTen 0 = 1 := rfl
          rw [nearestRank, hnum, hone, Nat.mul_one]

end

/-- Zeros at the end of a coefficient can be taken for a power of ten. -/
theorem nearestRank_mul_powerOfTen (coefficient zeros : Nat) (exponent : Int) :
    nearestRank (coefficient * powerOfTen zeros) exponent
      = nearestRank coefficient (zeros + exponent) := by
  refine rankOfRatio_congr (powerOfTen_pos _) (powerOfTen_pos _) ?_
  have hexponents : zeros + exponent.toNat + (-(zeros + exponent)).toNat
      = (zeros + exponent).toNat + (-exponent).toNat := by omega
  have hpowers := congrArg powerOfTen hexponents
  simp only [powerOfTen_add] at hpowers
  calc coefficient * powerOfTen zeros * powerOfTen exponent.toNat
        * powerOfTen (-(zeros + exponent)).toNat
      = coefficient * (powerOfTen zeros * powerOfTen exponent.toNat
        * powerOfTen (-(zeros + exponent)).toNat) := by ring
    _ = coefficient * powerOfTen (zeros + exponent).toNat * powerOfTen (-exponent).toNat := by
      rw [hpowers]
      ring

end TrustLogic.Degree
