import Mathlib.Tactic.Linarith
import Mathlib.Tactic.Ring
import ModuleScaffold.Number.Nearest
import ModuleScaffold.Number.Shortest

/-!
# Correct rounding

A magnitude rounds to a rank if it lies no further than half way to the magnitudes of the two
neighbours, and not just half way if the rank is odd (`ModuleScaffold.Number.Rounds`). The intervals
of different ranks do not overlap, so there is at most one such rank, and it is the one that
`ModuleScaffold.Number.nearestRank` computes.

Magnitudes are quotients, doubled: `Rounds rank scaled den` is about `scaled / (2 * den)` in units of
`2 ^ -1074`.

Main statements:

* `ModuleScaffold.Number.magnitude_succ` – the magnitudes ascend, by powers of two;
* `ModuleScaffold.Number.rounds_nearestRank` – **the nearest rank is rounded to**;
* `ModuleScaffold.Number.Rounds.unique` – **no other rank is**.
-/

namespace ModuleScaffold

namespace Number

/-! ### Magnitudes -/

theorem blockSize_pos : 0 < blockSize := by decide

/-- The distance of a magnitude from the next. -/
def gap (rank : ℕ) : ℕ :=
  Nat.pow 2 (rank / blockSize - 1)

theorem gap_pos (rank : ℕ) : 0 < gap rank :=
  Nat.pow_pos (by decide)

theorem magnitude_of_lt {rank : ℕ} (h : rank < blockSize) : magnitude rank = rank := by
  rw [magnitude, if_pos h]

/-- The magnitudes of a block of normal numbers. -/
theorem magnitude_block {k f : ℕ} (hf : f < blockSize) :
    magnitude (blockSize * (k + 1) + f) = (blockSize + f) * 2 ^ k := by
  have hge : ¬blockSize * (k + 1) + f < blockSize := by
    rw [Nat.mul_succ]
    omega
  rw [magnitude, if_neg hge, Nat.mul_add_mod, Nat.mod_eq_of_lt hf, Nat.mul_add_div blockSize_pos,
    Nat.div_eq_of_lt hf, Nat.add_zero, Nat.add_sub_cancel]
  rfl

theorem gap_block {k f : ℕ} (hf : f < blockSize) : gap (blockSize * (k + 1) + f) = 2 ^ k := by
  rw [gap, Nat.mul_add_div blockSize_pos, Nat.div_eq_of_lt hf, Nat.add_zero, Nat.add_sub_cancel]
  rfl

theorem gap_of_lt {rank : ℕ} (h : rank < blockSize) : gap rank = 1 := by
  rw [gap, Nat.div_eq_of_lt h, Nat.zero_sub, Nat.pow_eq, Nat.pow_zero]

/-- A rank lies below the first block of normal numbers or in a block. -/
theorem rank_cases (rank : ℕ) :
    rank < blockSize ∨ ∃ k f, f < blockSize ∧ rank = blockSize * (k + 1) + f := by
  by_cases h : rank < blockSize
  · exact .inl h
  · have hdiv : 0 < rank / blockSize := Nat.div_pos (Nat.le_of_not_lt h) blockSize_pos
    obtain ⟨k, hk⟩ := Nat.exists_eq_add_one.2 hdiv
    refine .inr ⟨k, rank % blockSize, Nat.mod_lt _ blockSize_pos, ?_⟩
    rw [← hk, Nat.div_add_mod]

/-- **The magnitudes ascend, by powers of two.** -/
theorem magnitude_succ (rank : ℕ) : magnitude (rank + 1) = magnitude rank + gap rank := by
  rcases rank_cases rank with h | ⟨k, f, hf, rfl⟩
  · rw [magnitude_of_lt h, gap_of_lt h]
    rcases Nat.lt_or_ge (rank + 1) blockSize with hlt | hge
    · exact magnitude_of_lt hlt
    · -- the first normal number
      have hsucc : rank + 1 = blockSize * (0 + 1) + 0 := by omega
      rw [hsucc, magnitude_block blockSize_pos]
      omega
  · rw [magnitude_block hf, gap_block hf]
    rcases Nat.lt_or_ge (f + 1) blockSize with hlt | hge
    · rw [Nat.add_assoc, magnitude_block hlt]
      ring
    · -- the first number of the next block
      have hsucc : blockSize * (k + 1) + f + 1 = blockSize * (k + 1 + 1) + 0 := by
        rw [Nat.mul_succ blockSize (k + 1)]
        omega
      have hlast : blockSize + f + 1 = 2 * blockSize := by omega
      rw [hsucc, magnitude_block blockSize_pos, ← Nat.succ_mul, Nat.succ_eq_add_one, hlast]
      ring

theorem magnitude_lt_succ (rank : ℕ) : magnitude rank < magnitude (rank + 1) := by
  rw [magnitude_succ]
  exact Nat.lt_add_of_pos_right (gap_pos rank)

theorem magnitude_strictMono : StrictMono magnitude :=
  strictMono_nat_of_lt_succ magnitude_lt_succ

/-- A magnitude is a number of steps of its block. -/
theorem magnitude_add_blocks {m k : ℕ} (hm : m ≤ 2 * blockSize) (hk : k = 0 ∨ blockSize ≤ m) :
    magnitude (m + k * blockSize) = m * 2 ^ k := by
  rcases Nat.lt_or_ge m blockSize with hlt | hge
  · obtain rfl : k = 0 := by omega
    rw [Nat.zero_mul, Nat.add_zero, magnitude_of_lt hlt, Nat.pow_zero, Nat.mul_one]
  rcases Nat.lt_or_ge m (2 * blockSize) with hlt | hge
  · have hrank : m + k * blockSize = blockSize * (k + 1) + (m - blockSize) := by
      rw [Nat.mul_succ, Nat.mul_comm blockSize k]
      omega
    rw [hrank, magnitude_block (by omega), Nat.add_sub_cancel' (by omega)]
  · obtain rfl : m = 2 * blockSize := by omega
    have hrank : 2 * blockSize + k * blockSize = blockSize * (k + 1 + 1) + 0 := by ring
    rw [hrank, magnitude_block blockSize_pos]
    ring

theorem le_gap {m k : ℕ} (hk : k = 0 ∨ blockSize ≤ m) : 2 ^ k ≤ gap (m + k * blockSize) := by
  rcases hk with rfl | hge
  · exact gap_pos _
  · refine Nat.pow_le_pow_right (by decide) ?_
    have hdiv : k + 1 ≤ (m + k * blockSize) / blockSize := by
      rw [Nat.le_div_iff_mul_le blockSize_pos, Nat.succ_mul]
      omega
    omega

/-! ### Rounding -/

/-- The units of magnitudes that make up one. -/
def unitsPerOne : ℕ := Nat.pow 2 1074

theorem unitsPerOne_pos : 0 < unitsPerOne := by
  unfold unitsPerOne
  generalize 1074 = n
  exact Nat.pow_pos (by decide)

/-- The magnitude `scaled / (2 * den)` rounds to the rank. -/
structure Rounds (rank scaled den : ℕ) : Prop where
  /-- It is at least half way from the magnitude before. -/
  low : (magnitude (rank - 1) + magnitude rank) * den ≤ scaled
  /-- It is at most half way to the magnitude behind. -/
  high : scaled ≤ (magnitude rank + magnitude (rank + 1)) * den
  /-- It is half way on neither side of an odd rank. -/
  odd : rank % 2 = 1 → (magnitude (rank - 1) + magnitude rank) * den < scaled ∧
    scaled < (magnitude rank + magnitude (rank + 1)) * den

/-- **Magnitudes round to one rank at most.** -/
theorem Rounds.unique {rank other scaled den : ℕ} (hden : 0 < den) (h : Rounds rank scaled den)
    (h' : Rounds other scaled den) : rank = other := by
  wlog hlt : rank < other generalizing rank other
  · rcases Nat.lt_or_ge other rank with hgt | hge
    · exact (this h' h hgt).symm
    · omega
  exfalso
  -- the interval of the smaller rank ends where that of the larger one begins, or before
  have hfront : magnitude rank ≤ magnitude (other - 1) :=
    magnitude_strictMono.monotone (by omega)
  have hback : magnitude (rank + 1) ≤ magnitude other := magnitude_strictMono.monotone hlt
  have hends : (magnitude rank + magnitude (rank + 1)) * den ≤
      (magnitude (other - 1) + magnitude other) * den :=
    Nat.mul_le_mul_right den (by omega)
  have hsame : (magnitude rank + magnitude (rank + 1)) * den =
      (magnitude (other - 1) + magnitude other) * den :=
    Nat.le_antisymm hends (h'.low.trans h.high)
  have hsum := Nat.eq_of_mul_eq_mul_right hden hsame
  have hother : other = rank + 1 := by
    refine magnitude_strictMono.injective ?_
    omega
  -- so it is half way between two neighbours, of which one is odd
  have hhigh := h.high
  have hlow := h'.low
  rcases Nat.mod_two_eq_zero_or_one rank with heven | hodd
  · have := h'.odd (by omega)
    omega
  · have := h.odd hodd
    omega

/-- What a rounded quotient is. -/
theorem roundHalfEven_spec {num den : ℕ} (hden : 0 < den) :
    2 * roundHalfEven num den * den ≤ 2 * num + den ∧
      2 * num ≤ (2 * roundHalfEven num den + 1) * den ∧
      (roundHalfEven num den % 2 = 1 → 2 * roundHalfEven num den * den < 2 * num + den ∧
        2 * num < (2 * roundHalfEven num den + 1) * den) := by
  have hdiv := Nat.div_add_mod num den
  have hmod := Nat.mod_lt num hden
  have hvalue : roundHalfEven num den =
      if 2 * (num % den) < den then num / den
      else if den < 2 * (num % den) then num / den + 1 else num / den + num / den % 2 := rfl
  have hexpand : ∀ m, 2 * m * den = 2 * (m * den) ∧ (2 * m + 1) * den = 2 * (m * den) + den :=
    fun m => ⟨by ring, by ring⟩
  have hsucc : (num / den + 1) * den = num / den * den + den := Nat.succ_mul _ _
  rw [Nat.mul_comm den] at hdiv
  rw [(hexpand _).1, (hexpand _).2, hvalue]
  split
  · exact ⟨by omega, by omega, fun _ => ⟨by omega, by omega⟩⟩
  split
  · exact ⟨by omega, by omega, fun _ => ⟨by omega, by omega⟩⟩
  · -- a tie goes to the even quotient
    rcases Nat.mod_two_eq_zero_or_one (num / den) with hq | hq
    · rw [hq, Nat.add_zero]
      exact ⟨by omega, by omega, fun hodd => by omega⟩
    · rw [hq]
      exact ⟨by omega, by omega, fun hodd => by omega⟩

/-- The quotient in units of its block is below twice the size of a block, and not below the size of
a block, but in the lowest one. -/
theorem block_bounds (q : ℕ) : q < 2 * blockSize * 2 ^ (Nat.log2 q - 52) ∧
    (Nat.log2 q - 52 = 0 ∨ blockSize * 2 ^ (Nat.log2 q - 52) ≤ q) := by
  have hblock : blockSize = 2 ^ 52 := rfl
  refine ⟨?_, ?_⟩
  · have hlt : q < 2 ^ (Nat.log2 q + 1) := Nat.lt_log2_self
    have hpow : 2 * blockSize * 2 ^ (Nat.log2 q - 52) = 2 ^ (53 + (Nat.log2 q - 52)) := by
      rw [hblock, Nat.pow_add]
      rfl
    rw [hpow]
    exact Nat.lt_of_lt_of_le hlt (Nat.pow_le_pow_right (by decide) (by omega))
  · rcases Nat.eq_zero_or_pos (Nat.log2 q - 52) with hzero | hpos
    · exact .inl hzero
    · have hq : q ≠ 0 := by
        rintro rfl
        exact absurd hpos (by decide)
      have hpow : blockSize * 2 ^ (Nat.log2 q - 52) = 2 ^ Nat.log2 q := by
        rw [hblock, ← Nat.pow_add]
        congr 1
        omega
      rw [hpow]
      exact .inr (Nat.log2_self_le hq)

/-- A number of steps of a block that is rounded to within the block is rounded to among all ranks. -/
theorem rounds_of_steps {m k scaled den : ℕ} (hm : m ≤ 2 * blockSize)
    (hk : k = 0 ∨ blockSize ≤ m) (hge : k = 0 ∨ blockSize * 2 ^ k * den ≤ scaled)
    (hlow : 2 * m * (den * 2 ^ k) ≤ 2 * scaled + den * 2 ^ k)
    (hhigh : 2 * scaled ≤ (2 * m + 1) * (den * 2 ^ k))
    (hodd : m % 2 = 1 → 2 * m * (den * 2 ^ k) < 2 * scaled + den * 2 ^ k ∧
      2 * scaled < (2 * m + 1) * (den * 2 ^ k)) :
    Rounds (m + k * blockSize) (2 * scaled) den := by
  have hmagnitude := magnitude_add_blocks hm hk
  have hparity : (m + k * blockSize) % 2 = m % 2 := by
    have hblock : m + k * blockSize = m + 2 * (k * 2 ^ 51) := by
      rw [show blockSize = 2 * 2 ^ 51 from rfl]
      ring
    rw [hblock, Nat.add_mul_mod_self_left]
  have hupper : (2 * m + 1) * (den * 2 ^ k) ≤
      (magnitude (m + k * blockSize) + magnitude (m + k * blockSize + 1)) * den := by
    have hgap := le_gap hk
    rw [magnitude_succ, hmagnitude]
    nlinarith
  rcases Nat.eq_zero_or_pos m with rfl | hpos
  · -- nothing lies below zero
    obtain rfl : k = 0 := by
      have := blockSize_pos
      omega
    refine ⟨?_, hhigh.trans hupper, fun h => ?_⟩
    · rw [Nat.zero_mul, Nat.add_zero, magnitude_of_lt blockSize_pos]
      omega
    · rw [hparity] at h
      cases h
  have hfront : magnitude (m + k * blockSize) =
      magnitude (m + k * blockSize - 1) + gap (m + k * blockSize - 1) := by
    rw [← magnitude_succ, Nat.sub_add_cancel (Nat.add_pos_left hpos _)]
  by_cases hedge : k = 0 ∨ blockSize ≤ m - 1
  · have hgap : 2 ^ k ≤ gap (m + k * blockSize - 1) := by
      rw [Nat.sub_add_comm hpos]
      exact le_gap hedge
    have hlower : (magnitude (m + k * blockSize - 1) + magnitude (m + k * blockSize)) * den +
        den * 2 ^ k ≤ 2 * m * (den * 2 ^ k) := by
      rw [hmagnitude] at hfront ⊢
      nlinarith
    refine ⟨by omega, hhigh.trans hupper, fun h => ?_⟩
    rw [hparity] at h
    obtain ⟨hlow, hhigh⟩ := hodd h
    exact ⟨by omega, hhigh.trans_le hupper⟩
  · -- in front of the first number of a block the magnitudes are closer together
    rw [not_or] at hedge
    obtain rfl : m = blockSize := by omega
    have hlower := hge.resolve_left hedge.1
    refine ⟨?_, hhigh.trans hupper, fun h => ?_⟩
    · rw [hmagnitude] at hfront ⊢
      nlinarith
    · rw [hparity] at h
      exact absurd h (by decide)

/-- **The nearest rank is rounded to.** -/
theorem rounds_nearestRank (num : ℕ) {den : ℕ} (hden : 0 < den) :
    Rounds (nearestRank num den) (2 * (num * unitsPerOne)) den := by
  obtain ⟨scaled, hscaled⟩ : ∃ scaled, scaled = num * unitsPerOne := ⟨_, rfl⟩
  obtain ⟨k, hk⟩ : ∃ k, k = Nat.log2 (scaled / den) - 52 := ⟨_, rfl⟩
  obtain ⟨m, hm⟩ : ∃ m, m = roundHalfEven scaled (den * 2 ^ k) := ⟨_, rfl⟩
  have hrank : nearestRank num den = m + k * blockSize := by
    unfold unitsPerOne at hscaled
    rw [hm, hk, hscaled]
    rfl
  obtain ⟨hbelow, habove⟩ := block_bounds (scaled / den)
  rw [← hk] at hbelow habove
  have hstep : 0 < den * 2 ^ k := Nat.mul_pos hden (Nat.pow_pos (by decide))
  obtain ⟨hlow, hhigh, hodd⟩ := @roundHalfEven_spec scaled _ hstep
  rw [← hm] at hlow hhigh hodd
  have hlt : scaled < 2 * blockSize * 2 ^ k * den := (Nat.div_lt_iff_lt_mul hden).1 hbelow
  have hge : k = 0 ∨ blockSize * 2 ^ k * den ≤ scaled :=
    habove.imp_right (Nat.le_div_iff_mul_le hden).1
  rw [hrank, ← hscaled]
  refine rounds_of_steps ?_ (hge.imp_right fun hge => ?_) hge hlow hhigh hodd
  · have : 2 * m * (den * 2 ^ k) < (4 * blockSize + 1) * (den * 2 ^ k) := by nlinarith
    have := Nat.lt_of_mul_lt_mul_right this
    omega
  · have : 2 * blockSize * (den * 2 ^ k) ≤ (2 * m + 1) * (den * 2 ^ k) := by nlinarith
    have := Nat.le_of_mul_le_mul_right this hstep
    omega

/-- **Rounding gives the rank.** -/
theorem nearestRank_eq {rank num den : ℕ} (hden : 0 < den)
    (h : Rounds rank (2 * (num * unitsPerOne)) den) : nearestRank num den = rank :=
  (rounds_nearestRank num hden).unique hden h

end Number

end ModuleScaffold
