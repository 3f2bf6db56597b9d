import ModuleScaffold.Proofs.Number.Rounding
import ModuleScaffold.Proofs.Reading.Literal

/-!
# Shortest decimals that are read back

The shortest decimal of a double is looked for on grids, each ten times finer than the one before.
The seventeenth grid is so fine that a step of it is shorter than the interval of the reals that
round to the double, so a point of it is found at the latest there
(`ModuleScaffold.Number.exists_onGrid`). A decimal in the interval rounds to the rank, and to no
other one, and the decimal that is written positionally is read as the same quotient.

Main statements:

* `ModuleScaffold.Number.shortest_roundsTo` – **the shortest decimal rounds to the double**;
* `ModuleScaffold.Number.readMagnitude_positional` – what a positional decimal is read as;
* `ModuleScaffold.Number.ofText_toText` – **every finite number is given back by its text**.
-/

namespace ModuleScaffold

namespace Text

/-! ### Decimal digits -/

theorem decimalDigits_of_lt {n : ℕ} (h : n < 10) : decimalDigits n = [n.digitChar] :=
  Nat.toDigits_of_lt_base h

theorem decimalDigits_of_le {n : ℕ} (h : 10 ≤ n) :
    decimalDigits n = decimalDigits (n / 10) ++ [(n % 10).digitChar] :=
  Nat.toDigits_of_base_le (by decide) h

theorem lt_pow_length (n : ℕ) : n < 10 ^ (decimalDigits n).length := by
  induction n using Nat.strongRecOn with
  | ind n ih =>
    rcases Nat.lt_or_ge n 10 with hlt | hge
    · rw [decimalDigits_of_lt hlt]
      simpa using hlt
    · have := ih (n / 10) (by omega)
      rw [decimalDigits_of_le hge, List.length_append, List.length_singleton, Nat.pow_succ]
      omega

theorem pow_length_le {n : ℕ} (hn : 0 < n) : 10 ^ ((decimalDigits n).length - 1) ≤ n := by
  induction n using Nat.strongRecOn with
  | ind n ih =>
    rcases Nat.lt_or_ge n 10 with hlt | hge
    · rw [decimalDigits_of_lt hlt]
      exact hn
    · have hpos : 0 < (decimalDigits (n / 10)).length :=
        List.length_pos_iff.2 Nat.toDigits_ne_nil
      obtain ⟨m, hm⟩ := Nat.exists_eq_add_one.2 hpos
      have := ih (n / 10) (by omega) (by omega)
      rw [hm, Nat.add_sub_cancel] at this
      rw [decimalDigits_of_le hge, List.length_append, List.length_singleton, Nat.add_sub_cancel,
        hm, Nat.pow_succ]
      omega

/-- The number of digits is the power of ten above the number. -/
theorem length_le_of_lt {n e : ℕ} (hn : 0 < n) (h : n < 10 ^ e) : (decimalDigits n).length ≤ e := by
  have := (Nat.pow_lt_pow_iff_right (by decide)).1 ((pow_length_le hn).trans_lt h)
  omega

theorem lt_length_of_le {n e : ℕ} (h : 10 ^ e ≤ n) : e < (decimalDigits n).length :=
  (Nat.pow_lt_pow_iff_right (by decide)).1 (h.trans_lt (lt_pow_length n))

/-! ### Reading digits -/

theorem numberFrom_append (radix : ℕ) : ∀ (cs ds : List Char) (high : ℕ),
    numberFrom radix high (cs ++ ds) =
      (numberFrom radix high cs).bind fun n => numberFrom radix n ds
  | [], ds, high => rfl
  | c :: cs, ds, high => by
    rw [List.cons_append, numberFrom, numberFrom]
    cases digitValue c with
    | none => rfl
    | some d =>
      simp only
      split
      · exact numberFrom_append radix cs ds _
      · rfl

theorem numberFrom_zeros (high n : ℕ) :
    numberFrom 10 high (List.replicate n '0') = some (high * 10 ^ n) := by
  induction n generalizing high with
  | zero => rw [List.replicate_zero, numberFrom, Nat.pow_zero, Nat.mul_one]
  | succ n ih =>
    have hzero : digitValue '0' = some 0 := by decide
    rw [List.replicate_succ, numberFrom, hzero]
    simp only
    rw [if_pos (by decide), ih, Nat.add_zero, Nat.pow_succ, Nat.mul_comm (10 ^ n), Nat.mul_assoc]

/-- Decimal digits are read as the number. -/
theorem numberFrom_decimalDigits (n : ℕ) : numberFrom 10 0 (decimalDigits n) = some n := by
  have hdigit : ∀ d < 10, digitValue d.digitChar = some d := by decide
  induction n using Nat.strongRecOn with
  | ind n ih =>
    rcases Nat.lt_or_ge n 10 with hlt | hge
    · rw [decimalDigits_of_lt hlt, numberFrom, hdigit n hlt]
      simp only
      rw [if_pos hlt, numberFrom, Nat.zero_mul, Nat.zero_add]
    · have hlast : n % 10 < 10 := Nat.mod_lt _ (by decide)
      rw [decimalDigits_of_le hge, numberFrom_append, ih (n / 10) (by omega), Option.bind_some,
        numberFrom, hdigit _ hlast]
      simp only
      rw [if_pos hlast, numberFrom]
      congr 1
      omega

end Text

namespace Number

open Text

/-! ### Decimals as quotients -/

theorem two_mul_unitsPerOne : 2 * unitsPerOne = Nat.pow 2 1075 := by
  unfold unitsPerOne
  have hexponent : 1075 = 1074 + 1 := rfl
  revert hexponent
  generalize 1074 = n
  rintro hexponent
  rw [hexponent]
  exact (Nat.pow_succ' (n := n)).symm

theorem Decimal.up_pos (e : Int) : 0 < Decimal.up e :=
  Nat.pow_pos (by decide)

theorem Decimal.down_pos (e : Int) : 0 < Decimal.down e :=
  Nat.pow_pos (by decide)

theorem Decimal.scaled_eq (d : Decimal) :
    d.scaled = 2 * (d.digits * Decimal.up d.exponent * unitsPerOne) := by
  rw [scaled, ← two_mul_unitsPerOne]
  ring

/-- One more power of ten is a factor more, or a divisor less. -/
theorem Decimal.up_succ_mul_down (e : Int) :
    Decimal.up (e + 1) * Decimal.down e = 10 * Decimal.up e * Decimal.down (e + 1) := by
  rcases Int.lt_or_le e 0 with hneg | hnonneg
  · obtain ⟨n, rfl⟩ : ∃ n : ℕ, e = -(n + 1 : Int) := ⟨(-e - 1).toNat, by omega⟩
    have h₁ : (-(n + 1 : Int) + 1).toNat = 0 := by omega
    have h₂ : (-(n + 1 : Int)).toNat = 0 := by omega
    have h₃ : (- -(n + 1 : Int)).toNat = n + 1 := by omega
    have h₄ : (-(-(n + 1 : Int) + 1)).toNat = n := by omega
    rw [up, up, down, down, h₁, h₂, h₃, h₄, Nat.pow_eq, Nat.pow_eq, Nat.pow_eq]
    ring
  · obtain ⟨n, rfl⟩ := Int.eq_ofNat_of_zero_le hnonneg
    have h₁ : ((n : Int) + 1).toNat = n + 1 := by omega
    have h₂ : (-(n : Int)).toNat = 0 := by omega
    have h₃ : (-((n : Int) + 1)).toNat = 0 := by omega
    rw [up, up, down, down, h₁, h₂, h₃, Int.toNat_natCast, Nat.pow_eq, Nat.pow_eq, Nat.pow_eq]
    ring

/-- Whether a quotient rounds to a rank does not depend on how it is written. -/
theorem Rounds.of_eq {rank num den num' den' : ℕ} (hden : 0 < den) (hden' : 0 < den')
    (heq : num * den' = num' * den) (h : Rounds rank num den) : Rounds rank num' den' := by
  have hle : ∀ {m}, m * den ≤ num → m * den' ≤ num' := fun {m} hm => by
    refine Nat.le_of_mul_le_mul_right ?_ hden
    calc m * den' * den = m * den * den' := by ring
      _ ≤ num * den' := Nat.mul_le_mul_right _ hm
      _ = num' * den := heq
  have hge : ∀ {m}, num ≤ m * den → num' ≤ m * den' := fun {m} hm => by
    refine Nat.le_of_mul_le_mul_right ?_ hden
    calc num' * den = num * den' := heq.symm
      _ ≤ m * den * den' := Nat.mul_le_mul_right _ hm
      _ = m * den' * den := by ring
  have hlt : ∀ {m}, m * den < num → m * den' < num' := fun {m} hm => by
    refine Nat.lt_of_mul_lt_mul_right (a := den) ?_
    calc m * den' * den = m * den * den' := by ring
      _ < num * den' := Nat.mul_lt_mul_of_pos_right hm hden'
      _ = num' * den := heq
  have hgt : ∀ {m}, num < m * den → num' < m * den' := fun {m} hm => by
    refine Nat.lt_of_mul_lt_mul_right (a := den) ?_
    calc num' * den = num * den' := heq.symm
      _ < m * den * den' := Nat.mul_lt_mul_of_pos_right hm hden'
      _ = m * den' * den := by ring
  exact ⟨hle h.low, hge h.high, fun hodd => ⟨hlt (h.odd hodd).1, hgt (h.odd hodd).2⟩⟩

/-- The test on decimals is that of their quotients. -/
theorem Decimal.roundsTo_iff {d : Decimal} {rank : ℕ} :
    d.roundsTo rank = true ↔ Rounds rank d.scaled (Decimal.down d.exponent) := by
  rw [roundsTo]
  rcases Nat.mod_two_eq_zero_or_one rank with heven | hodd
  · rw [if_pos heven, Bool.and_eq_true, decide_eq_true_iff, decide_eq_true_iff]
    exact ⟨fun h => ⟨h.1, h.2, fun hodd => by omega⟩, fun h => ⟨h.low, h.high⟩⟩
  · rw [if_neg (by omega), Bool.and_eq_true, decide_eq_true_iff, decide_eq_true_iff]
    exact ⟨fun h => ⟨h.1.le, h.2.le, fun _ => h⟩, fun h => h.odd hodd⟩

/-! ### Grids -/

/-- The interval of a rank is wide for its magnitude. -/
theorem magnitude_lt_width {rank : ℕ} :
    2 * magnitude (rank + 1) < (gap rank + gap (rank + 1)) * 2 ^ 53 := by
  have hblock : 2 ^ 53 = 2 * blockSize := rfl
  have hfront := gap_pos rank
  rw [hblock]
  rcases rank_cases (rank + 1) with hlt | ⟨k, f, hf, hrank⟩
  · rw [magnitude_of_lt hlt, gap_of_lt hlt, gap_of_lt (by omega)]
    omega
  · rw [hrank, magnitude_block hf, gap_block hf]
    rcases Nat.eq_zero_or_pos f with rfl | hpos
    · have := Nat.mul_pos hfront blockSize_pos
      rw [Nat.add_zero]
      nlinarith
    · have hbefore : rank = blockSize * (k + 1) + (f - 1) := by omega
      have := Nat.mul_lt_mul_of_pos_right hf (Nat.pow_pos (n := k) (show 0 < 2 by decide))
      rw [hbefore, gap_block (by omega)]
      nlinarith

theorem isSome_onGrid (rank : ℕ) (e : Int) : (onGrid rank e).isSome =
    ((⟨magnitude rank * Decimal.down e / (unitsPerOne * Decimal.up e), e⟩ : Decimal).roundsTo rank ||
      (⟨magnitude rank * Decimal.down e / (unitsPerOne * Decimal.up e) + 1, e⟩ :
        Decimal).roundsTo rank) := by
  unfold onGrid unitsPerOne
  generalize 1074 = n
  generalize Nat.pow 2 n = u
  dsimp only
  split <;> simp [*]

/-- **A fine grid has a point in the interval of the rank**, one of the two around its magnitude. -/
theorem exists_onGrid {rank : ℕ} {e : Int} (hrank : 0 < rank)
    (hfine : 10 ^ 16 * (unitsPerOne * Decimal.up e) ≤ magnitude rank * Decimal.down e) :
    ∃ d, onGrid rank e = some d := by
  obtain ⟨rank, rfl⟩ := Nat.exists_eq_add_one.2 hrank
  obtain ⟨num, hnum⟩ : ∃ num, num = magnitude (rank + 1) * Decimal.down e := ⟨_, rfl⟩
  obtain ⟨den, hden⟩ : ∃ den, den = unitsPerOne * Decimal.up e := ⟨_, rfl⟩
  have hpos : 0 < den := by
    rw [hden]
    exact Nat.mul_pos unitsPerOne_pos (Decimal.up_pos e)
  have hdown := Decimal.down_pos e
  have hscaled : ∀ q, (⟨q, e⟩ : Decimal).scaled = 2 * (q * den) := fun q => by
    rw [Decimal.scaled_eq, hden]
    ring
  have hdivision : num / den * den + num % den = num := by
    rw [Nat.mul_comm]
    exact Nat.div_add_mod num den
  have hmod := Nat.mod_lt num hpos
  have hsucc : (num / den + 1) * den = num / den * den + den := Nat.succ_mul _ _
  have hfront : magnitude (rank + 1) * Decimal.down e =
      magnitude rank * Decimal.down e + gap rank * Decimal.down e := by
    rw [magnitude_succ, Nat.add_mul]
  have hback : magnitude (rank + 1 + 1) * Decimal.down e =
      magnitude (rank + 1) * Decimal.down e + gap (rank + 1) * Decimal.down e := by
    rw [magnitude_succ (rank + 1), Nat.add_mul]
  have hgap₁ := Nat.mul_pos (gap_pos rank) hdown
  have hgap₂ := Nat.mul_pos (gap_pos (rank + 1)) hdown
  rw [← hnum, ← hden] at hfine
  rw [← hnum] at hfront hback
  rw [← Option.isSome_iff_exists, isSome_onGrid, ← hnum, ← hden, Bool.or_eq_true,
    Decimal.roundsTo_iff, Decimal.roundsTo_iff, hscaled, hscaled, hsucc]
  by_contra hnone
  rw [not_or] at hnone
  -- the point below is too small, and the one above too large
  have hbelow : 2 * (num / den * den) ≤ magnitude rank * Decimal.down e + num := by
    by_contra hlt
    refine hnone.1 ⟨?_, ?_, fun _ => ⟨?_, ?_⟩⟩ <;>
      simp only [Nat.add_sub_cancel, Nat.add_mul, ← hnum] <;> omega
  have habove : num + magnitude (rank + 1 + 1) * Decimal.down e ≤
      2 * (num / den * den + den) := by
    by_contra hlt
    refine hnone.2 ⟨?_, ?_, fun _ => ⟨?_, ?_⟩⟩ <;>
      simp only [Nat.add_sub_cancel, Nat.add_mul, ← hnum] <;> omega
  have hwidth := Nat.mul_lt_mul_of_pos_right (@magnitude_lt_width rank) hdown
  have hexpand : (gap rank + gap (rank + 1)) * 2 ^ 53 * Decimal.down e =
      (gap rank * Decimal.down e + gap (rank + 1) * Decimal.down e) * 2 ^ 53 := by ring
  rw [hexpand, Nat.mul_assoc, ← hnum] at hwidth
  omega

theorem roundsTo_of_onGrid {rank : ℕ} {e : Int} {d : Decimal} (h : onGrid rank e = some d) :
    d.roundsTo rank = true := by
  unfold onGrid at h
  dsimp only at h
  split at h
  · next hbelow habove =>
    obtain rfl := Option.some.inj h
    split
    · exact hbelow
    · exact habove
  · next hbelow _ =>
    obtain rfl := Option.some.inj h
    exact hbelow
  · next _ habove =>
    obtain rfl := Option.some.inj h
    exact habove
  · cases h

/-- If a grid within reach has a point in the interval, a point in the interval is found. -/
theorem roundsTo_shortestFrom {rank : ℕ} {leading : Int} {fuel places n : ℕ} {d : Decimal}
    (hn : n < fuel) (h : onGrid rank (leading - (places + n : ℕ) + 1) = some d) :
    (shortestFrom rank leading places fuel).roundsTo rank = true := by
  induction fuel generalizing places n with
  | zero => exact absurd hn (Nat.not_lt_zero n)
  | succ fuel ih =>
    rw [shortestFrom]
    split
    · next hd => exact roundsTo_of_onGrid hd
    · next hnone =>
      cases n with
      | zero =>
        rw [Nat.add_zero, hnone] at h
        cases h
      | succ n =>
        refine ih (Nat.lt_of_succ_lt_succ hn) ?_
        rwa [Nat.add_assoc, Nat.add_comm 1]

/-- A zero at the end of the digits is not needed. -/
theorem Decimal.roundsTo_div_ten {d : Decimal} {rank : ℕ} (hzero : d.digits % 10 = 0)
    (h : d.roundsTo rank = true) :
    (⟨d.digits / 10, d.exponent + 1⟩ : Decimal).roundsTo rank = true := by
  rw [roundsTo_iff] at h ⊢
  refine h.of_eq (down_pos _) (down_pos _) ?_
  have hexponent := up_succ_mul_down d.exponent
  obtain ⟨q, hq⟩ : ∃ q, q = d.digits / 10 := ⟨_, rfl⟩
  have hdigits : d.digits = 10 * q := by omega
  rw [scaled_eq, scaled_eq]
  simp only
  rw [← hq, hdigits]
  calc 2 * (10 * q * up d.exponent * unitsPerOne) * down (d.exponent + 1)
      = 2 * (q * unitsPerOne) * (10 * up d.exponent * down (d.exponent + 1)) := by ring
    _ = 2 * (q * unitsPerOne) * (up (d.exponent + 1) * down d.exponent) := by rw [hexponent]
    _ = 2 * (q * up (d.exponent + 1) * unitsPerOne) * down d.exponent := by ring

theorem roundsTo_trimFrom {rank : ℕ} (fuel : ℕ) {d : Decimal} (h : d.roundsTo rank = true) :
    (d.trimFrom fuel).roundsTo rank = true := by
  induction fuel generalizing d with
  | zero => exact h
  | succ fuel ih =>
    rw [Decimal.trimFrom]
    split
    · next hzero =>
      rw [Bool.and_eq_true, decide_eq_true_iff] at hzero
      exact ih (d.roundsTo_div_ten hzero.1 h)
    · exact h

/-! ### The leading digit -/

/-- The places that are counted reach far below the smallest magnitude. -/
theorem unitsPerOne_le {c : ℕ} (hc : c = 343) : 10 ^ 19 * unitsPerOne ≤ 10 ^ c := by
  subst hc
  decide +kernel

/-- The number of digits that the leading exponent is taken from. -/
theorem exists_leadingExponent {rank c : ℕ} (hrank : 0 < rank) (hc : c = 343) :
    ∃ length : ℕ, 19 < length ∧ leadingExponent rank = length - 344 ∧
      10 ^ (length - 1) * unitsPerOne ≤ magnitude rank * 10 ^ c := by
  obtain ⟨n, hn⟩ : ∃ n, n = magnitude rank * 10 ^ c / unitsPerOne := ⟨_, rfl⟩
  have hmagnitude : 1 ≤ magnitude rank := (Nat.zero_le _).trans_lt (magnitude_strictMono hrank)
  have hge : 10 ^ 19 ≤ n := by
    rw [hn, Nat.le_div_iff_mul_le unitsPerOne_pos]
    exact (unitsPerOne_le hc).trans (Nat.le_mul_of_pos_left _ hmagnitude)
  have hle : n * unitsPerOne ≤ magnitude rank * 10 ^ c := by
    rw [hn]
    exact Nat.div_mul_le_self _ _
  have hleading : leadingExponent rank = (decimalDigits n).length - 344 := by
    unfold unitsPerOne at hn
    subst hn hc
    rfl
  refine ⟨(decimalDigits n).length, lt_length_of_le hge, hleading, ?_⟩
  exact (Nat.mul_le_mul_right _ (pow_length_le (by omega))).trans hle

/-- The seventeenth grid is fine. -/
theorem fine_grid {rank : ℕ} (hrank : 0 < rank) :
    10 ^ 16 * (unitsPerOne * Decimal.up (leadingExponent rank - (1 + 16 : ℕ) + 1)) ≤
      magnitude rank * Decimal.down (leadingExponent rank - (1 + 16 : ℕ) + 1) := by
  obtain ⟨c, hc⟩ : ∃ c, c = 343 := ⟨_, rfl⟩
  obtain ⟨length, hlength, hleading, hle⟩ := exists_leadingExponent hrank hc
  have hpow : ∀ n, 0 < 10 ^ n := fun n => Nat.pow_pos (by decide)
  rw [hleading]
  rcases Nat.lt_or_ge length 360 with hlt | hge
  · -- the grid has places behind the point
    obtain ⟨b, hb⟩ : ∃ b, b = 360 - length := ⟨_, rfl⟩
    have hup : ((length : Int) - 344 - (1 + 16 : ℕ) + 1).toNat = 0 := by omega
    have hdown : (-((length : Int) - 344 - (1 + 16 : ℕ) + 1)).toNat = b := by omega
    have hfront : 10 ^ (length - 1) = 10 ^ (c - b) * 10 ^ 16 := by
      rw [← Nat.pow_add]
      congr 1
      omega
    have hback : 10 ^ c = 10 ^ (c - b) * 10 ^ b := by
      rw [← Nat.pow_add]
      congr 1
      omega
    rw [Decimal.up, Decimal.down, hup, hdown, Nat.pow_eq, Nat.pow_eq, Nat.pow_zero, Nat.mul_one]
    refine Nat.le_of_mul_le_mul_left ?_ (hpow (c - b))
    calc 10 ^ (c - b) * (10 ^ 16 * unitsPerOne) = 10 ^ (length - 1) * unitsPerOne := by
          rw [hfront, Nat.mul_assoc]
      _ ≤ magnitude rank * 10 ^ c := hle
      _ = 10 ^ (c - b) * (magnitude rank * 10 ^ b) := by
          rw [hback]
          ring
  · obtain ⟨b, hb⟩ : ∃ b, b = length - 360 := ⟨_, rfl⟩
    have hup : ((length : Int) - 344 - (1 + 16 : ℕ) + 1).toNat = b := by omega
    have hdown : (-((length : Int) - 344 - (1 + 16 : ℕ) + 1)).toNat = 0 := by omega
    have hfront : 10 ^ (length - 1) = 10 ^ c * (10 ^ 16 * 10 ^ b) := by
      rw [← Nat.pow_add, ← Nat.pow_add]
      congr 1
      omega
    rw [Decimal.up, Decimal.down, hup, hdown, Nat.pow_eq, Nat.pow_eq, Nat.pow_zero, Nat.mul_one]
    refine Nat.le_of_mul_le_mul_left ?_ (hpow c)
    calc 10 ^ c * (10 ^ 16 * (unitsPerOne * 10 ^ b)) = 10 ^ (length - 1) * unitsPerOne := by
          rw [hfront]
          ring
      _ ≤ magnitude rank * 10 ^ c := hle
      _ = 10 ^ c * magnitude rank := Nat.mul_comm _ _

/-- **The shortest decimal rounds to the double.** -/
theorem shortest_roundsTo {rank : ℕ} (hrank : 0 < rank) :
    (shortest rank).roundsTo rank = true := by
  obtain ⟨d, hd⟩ := exists_onGrid hrank (fine_grid hrank)
  rw [shortest, if_neg (Nat.ne_of_gt hrank)]
  exact roundsTo_trimFrom 17 (roundsTo_shortestFrom (show 16 < 17 by decide) hd)

/-- A decimal that rounds to a positive magnitude is not zero. -/
theorem digits_pos_of_roundsTo {d : Decimal} {rank : ℕ} (hrank : 0 < rank)
    (h : d.roundsTo rank = true) : 0 < d.digits := by
  have hlow := (Decimal.roundsTo_iff.1 h).low
  have hmagnitude : 0 < magnitude rank := (Nat.zero_le _).trans_lt (magnitude_strictMono hrank)
  refine Nat.pos_of_ne_zero fun hzero => ?_
  rw [Decimal.scaled_eq, hzero, Nat.zero_mul, Nat.zero_mul, Nat.mul_zero, Nat.le_zero,
    Nat.mul_eq_zero] at hlow
  have := Decimal.down_pos d.exponent
  omega

/-! ### Reading -/

theorem readNumber_of_ne_nil {radix : ℕ} {cs : List Char} (h : cs ≠ []) :
    readNumber radix cs = numberFrom radix 0 cs := by
  rw [readNumber, if_neg (by simpa using h)]

theorem span_isDigit {cs : List Char} (h : ∀ c ∈ cs, c.isDigit = true) :
    cs.span Char.isDigit = (cs, []) := by
  have := Source.span_append h (show ∀ c ∈ ([] : List Char).head?, c.isDigit = false by simp)
  rwa [List.append_nil] at this

/-- Digits alone are read as a natural. -/
theorem readMagnitude_whole (negative : Bool) {cs : List Char} {n : ℕ}
    (h : ∀ c ∈ cs, c.isDigit = true) (hn : readNumber 10 cs = some n) :
    readMagnitude negative cs = some (.ofDecimal negative n (-(0 : ℕ))) := by
  rw [readMagnitude, span_isDigit h]
  simp only [List.append_nil, hn, List.length_nil]

/-- Digits around a point are read as one natural, and those behind the point are counted. -/
theorem readMagnitude_point (negative : Bool) (cs ds : List Char) {n : ℕ}
    (h : ∀ c ∈ cs, c.isDigit = true) (h' : ∀ c ∈ ds, c.isDigit = true)
    (hn : readNumber 10 (cs ++ ds) = some n) :
    readMagnitude negative (cs ++ '.' :: ds) = some (.ofDecimal negative n (-ds.length)) := by
  have hpoint : (cs ++ '.' :: ds).span Char.isDigit = (cs, '.' :: ds) :=
    Source.span_append h (by simp)
  rw [readMagnitude, hpoint]
  simp only [span_isDigit h', hn]

/-- **A positional decimal is read as its digits, with a divisor for those behind the point.** -/
theorem readMagnitude_positional (negative : Bool) (d : Decimal) :
    readMagnitude negative d.positional = some (.ofDecimal negative
      (d.digits * Decimal.up d.exponent) (-(-d.exponent).toNat)) := by
  have hdigits : ∀ c ∈ decimalDigits d.digits, c.isDigit = true := fun c hc =>
    Nat.isDigit_of_mem_toDigits (by decide) (by decide) hc
  have hne : decimalDigits d.digits ≠ [] := Nat.toDigits_ne_nil
  have hzeros : ∀ n, ∀ c ∈ List.replicate n '0', c.isDigit = true := by
    intro n c hc
    rw [List.eq_of_mem_replicate hc]
    rfl
  have hread : numberFrom 10 0 (decimalDigits d.digits) = some d.digits :=
    numberFrom_decimalDigits d.digits
  rw [Decimal.positional, Decimal.up]
  simp only
  split
  · next hexp =>
    -- zeros behind the digits
    have hplaces : (-d.exponent).toNat = 0 := by omega
    rw [hplaces]
    refine readMagnitude_whole negative
      (fun c hc => (List.mem_append.1 hc).elim (hdigits c) (hzeros _ c)) ?_
    rw [readNumber_of_ne_nil (by simp [hne]), numberFrom_append, hread, Option.bind_some,
      numberFrom_zeros, Nat.pow_eq]
  · next hexp =>
    have hfactor : d.exponent.toNat = 0 := by omega
    rw [hfactor, Nat.pow_eq, Nat.pow_zero, Nat.mul_one]
    split
    · next hlength =>
      -- zeros behind the point and in front of the digits
      obtain ⟨n, hn⟩ : ∃ n, n = (-d.exponent).toNat - (decimalDigits d.digits).length := ⟨_, rfl⟩
      have hpart : (List.replicate n '0' ++ decimalDigits d.digits).length =
          (-d.exponent).toNat := by
        rw [List.length_append, List.length_replicate]
        omega
      have hall : ∀ c ∈ List.replicate n '0' ++ decimalDigits d.digits, c.isDigit = true :=
        fun c hc => (List.mem_append.1 hc).elim (hzeros n c) (hdigits c)
      have hnumber : readNumber 10 (['0'] ++ (List.replicate n '0' ++ decimalDigits d.digits)) =
          some d.digits := by
        have hzero : numberFrom 10 0 ['0'] = some 0 := numberFrom_zeros 0 1
        rw [readNumber_of_ne_nil (by simp), numberFrom_append, hzero, Option.bind_some,
          numberFrom_append, numberFrom_zeros, Nat.zero_mul, Option.bind_some, hread]
      have hpoint := readMagnitude_point negative ['0'] _ (hzeros 1) hall hnumber
      rw [hpart] at hpoint
      rwa [← hn]
    · next hlength =>
      -- the point stands between the digits
      obtain ⟨i, hi⟩ : ∃ i, i = (decimalDigits d.digits).length - (-d.exponent).toNat := ⟨_, rfl⟩
      have hpart : ((decimalDigits d.digits).drop i).length = (-d.exponent).toNat := by
        rw [List.length_drop]
        omega
      have hnumber : readNumber 10 ((decimalDigits d.digits).take i ++
          (decimalDigits d.digits).drop i) = some d.digits := by
        rw [List.take_append_drop, readNumber_of_ne_nil hne, hread]
      have hpoint := readMagnitude_point negative _ _
        (fun c hc => hdigits c (List.mem_of_mem_take hc))
        (fun c hc => hdigits c (List.mem_of_mem_drop hc)) hnumber
      rw [hpart] at hpoint
      rwa [← hi]

/-- The magnitudes of finite numbers are bounded. -/
theorem magnitude_rankCount_le : magnitude rankCount ≤ 10 ^ 309 * unitsPerOne := by
  have hcount : rankCount = blockSize * (2046 + 1) + 0 := Nat.mul_comm _ _
  rw [hcount, magnitude_block blockSize_pos]
  decide +kernel

theorem two_mul_unitsPerOne_le : 2 * unitsPerOne ≤ 10 ^ 324 := by
  decide +kernel

/-- A quotient that rounds to a finite number has its first digit within a few hundred places. -/
theorem places_of_rounds {rank digits places : ℕ} (hrank : 0 < rank) (hlt : rank < rankCount)
    (hdigits : 0 < digits) (h : Rounds rank (2 * (digits * unitsPerOne)) (10 ^ places)) :
    places ≤ (decimalDigits digits).length + 324 ∧
      (decimalDigits digits).length ≤ places + 310 := by
  have hmagnitude : 0 < magnitude rank := (Nat.zero_le _).trans_lt (magnitude_strictMono hrank)
  have hpow : 0 < 10 ^ places := Nat.pow_pos (by decide)
  constructor
  · have hle : 10 ^ places ≤ digits * (2 * unitsPerOne) := by
      calc 10 ^ places ≤ (magnitude (rank - 1) + magnitude rank) * 10 ^ places :=
            Nat.le_mul_of_pos_left _ (Nat.add_pos_right _ hmagnitude)
        _ ≤ 2 * (digits * unitsPerOne) := h.low
        _ = digits * (2 * unitsPerOne) := by ring
    have hbound : 10 ^ places < 10 ^ ((decimalDigits digits).length + 324) := by
      rw [Nat.pow_add]
      exact (hle.trans (Nat.mul_le_mul_left _ two_mul_unitsPerOne_le)).trans_lt
        (Nat.mul_lt_mul_of_pos_right (lt_pow_length digits) (Nat.pow_pos (by decide)))
    exact ((Nat.pow_lt_pow_iff_right (by decide)).1 hbound).le
  · have hbelow : magnitude rank ≤ 10 ^ 309 * unitsPerOne :=
      (magnitude_strictMono.monotone hlt.le).trans magnitude_rankCount_le
    have hbehind : magnitude (rank + 1) ≤ 10 ^ 309 * unitsPerOne :=
      (magnitude_strictMono.monotone hlt).trans magnitude_rankCount_le
    have hle : digits * (2 * unitsPerOne) ≤ 10 ^ 309 * 10 ^ places * (2 * unitsPerOne) := by
      calc digits * (2 * unitsPerOne) = 2 * (digits * unitsPerOne) := by ring
        _ ≤ (magnitude rank + magnitude (rank + 1)) * 10 ^ places := h.high
        _ ≤ (10 ^ 309 * unitsPerOne + 10 ^ 309 * unitsPerOne) * 10 ^ places :=
          Nat.mul_le_mul_right _ (Nat.add_le_add hbelow hbehind)
        _ = 10 ^ 309 * 10 ^ places * (2 * unitsPerOne) := by ring
    have hupper := Nat.le_of_mul_le_mul_right hle (Nat.mul_pos (by decide) unitsPerOne_pos)
    rw [← Nat.pow_add] at hupper
    refine length_le_of_lt hdigits (hupper.trans_lt ?_)
    exact Nat.pow_lt_pow_right (by decide) (by omega)

theorem ofDecimal_of_rounds (negative : Bool) {rank digits places : ℕ} (hrank : 0 < rank)
    (hlt : rank < rankCount) (hdigits : 0 < digits)
    (h : Rounds rank (2 * (digits * unitsPerOne)) (10 ^ places)) :
    Double.ofDecimal negative digits (-places) = .ofRank negative rank := by
  obtain ⟨hlow, hhigh⟩ := places_of_rounds hrank hlt hdigits h
  have hnearest := nearestRank_eq (Nat.pow_pos (by decide)) h
  rw [Double.ofDecimal, if_neg (by omega), if_neg (by omega), if_neg (by omega),
    Double.ofRatio, Double.ofRatio]
  split
  · obtain rfl : places = 0 := by omega
    rw [Nat.pow_zero] at hnearest
    rw [Nat.cast_zero, Int.neg_zero, Int.toNat_zero, Nat.pow_eq, Nat.pow_zero, Nat.mul_one,
      hnearest]
  · rw [Int.neg_neg, Int.toNat_natCast, Nat.pow_eq, hnearest]

/-- The number of the shortest decimal is the double. -/
theorem ofDecimal_shortest (negative : Bool) (rank : Fin rankCount) :
    Double.ofDecimal negative ((shortest rank).digits * Decimal.up (shortest rank).exponent)
      (-(-(shortest rank).exponent).toNat) = .finite negative rank := by
  have hfinite : Double.ofRank negative rank = .finite negative rank := by
    rw [Double.ofRank, dif_pos rank.isLt]
  rw [← hfinite]
  rcases Nat.eq_zero_or_pos rank.val with hzero | hrank
  · rw [hzero]
    rfl
  · have hrounds := shortest_roundsTo hrank
    have hdigits := digits_pos_of_roundsTo hrank hrounds
    have hrounds' := Decimal.roundsTo_iff.1 hrounds
    rw [Decimal.scaled_eq] at hrounds'
    exact ofDecimal_of_rounds negative hrank rank.isLt
      (Nat.mul_pos hdigits (Decimal.up_pos _)) hrounds'

/-- **Every finite number is given back by its text.** -/
theorem ofText_toText {n : Double} (h : n.isFinite = true) : Double.ofText n.toText = some n := by
  cases n with
  | nan => cases h
  | infinite negative => cases h
  | finite negative rank =>
    have hdecimal := isDecimal_positional (shortest rank)
    rw [Double.ofText, Double.toText, String.toList_ofList]
    cases negative with
    | false =>
      rw [if_neg Bool.false_ne_true, List.nil_append, ofChars_isDecimal hdecimal,
        readMagnitude_positional, ofDecimal_shortest]
    | true =>
      rw [if_pos rfl, List.singleton_append, ofChars_neg_isDecimal hdecimal,
        readMagnitude_positional, ofDecimal_shortest]

end Number

end ModuleScaffold
