import PeerMessaging.Proofs.Nearest
/-!
# The shortest decimal reads back

The printer tries the grids of `1, 2, …, 17`-digit decimals around a number `m · 2^q` and keeps the
first hit in the rounding interval. Seventeen digits always hit: the grid step is then at most `10^-16` times the
number, less than twice the distance from the number to either end of its interval, so the nearer
of the two grid points around the number lies inside. Dropping
trailing zeros keeps the value, so the shortest decimal lies in the rounding interval.
-/

namespace PeerMessaging.Number

theorem scaled_value (m : Nat) (q : Int) :
    ((m * Nat.pow 2 q.toNat : Nat) : ℚ) / (Nat.pow 2 (-q).toNat : Nat) = m * 2 ^ q := by
  push_cast [Nat.pow_eq]
  rw [← zpow_mul_toNat (by norm_num : (0 : ℚ) < 2) q]
  field_simp

/-- The leading decimal exponent is at most the number's: `10^L ≤ m · 2^q`. -/
theorem leadingExponent_le {m : Nat} (pos : 0 < m) (q : Int) :
    (10 : ℚ) ^ leadingExponent m q ≤ m * 2 ^ q := by
  unfold leadingExponent
  dsimp only
  generalize hnum : m * Nat.pow 2 q.toNat = num
  generalize hden : Nat.pow 2 (-q).toNat = den
  have value : (num : ℚ) / den = m * 2 ^ q := by rw [← hnum, ← hden, scaled_value]
  have denPos : 0 < den := by rw [← hden]; exact Nat.pow_pos (by norm_num)
  have numPos : 0 < num := by rw [← hnum]; exact Nat.mul_pos pos (Nat.pow_pos (by norm_num))
  obtain ⟨-, denBelow⟩ := decimalLength_bounds denPos
  generalize decimalLength den = shift at denBelow
  -- the scaled quotient is positive, so it has a leading digit
  have quotientPos : 0 < num * Nat.pow 10 shift / den := by
    apply Nat.div_pos _ denPos
    calc den ≤ 10 ^ shift := denBelow.le
      _ ≤ num * Nat.pow 10 shift := by rw [Nat.pow_eq]; exact Nat.le_mul_of_pos_left _ numPos
  obtain ⟨lead, -⟩ := decimalLength_bounds quotientPos
  have cleared : num * Nat.pow 10 shift / den * den ≤ num * Nat.pow 10 shift := Nat.div_mul_le_self _ _
  generalize num * Nat.pow 10 shift / den = quotient at lead cleared
  have len := one_le_decimalLength quotient
  generalize decimalLength quotient = digits at lead len
  have lead' : (10 : ℚ) ^ ((digits : Int) - 1) * den ≤ num * 10 ^ (shift : Int) := by
    rw [show (digits : Int) - 1 = ((digits - 1 : Nat) : Int) by omega, zpow_natCast, zpow_natCast]
    have : ((10 ^ (digits - 1) * den : Nat) : ℚ) ≤ ((num * Nat.pow 10 shift : Nat) : ℚ) := by
      exact_mod_cast (Nat.mul_le_mul_right den lead).trans cleared
    push_cast [Nat.pow_eq] at this
    exact this
  rw [← value, le_div_iff₀ (by exact_mod_cast denPos), zpow_sub₀ (by norm_num), div_mul_eq_mul_div,
    div_le_iff₀ (by positivity)]
  exact lead'

theorem floor_ratio {A B : Nat} (hB : 0 < B) :
    ((A / B : Nat) : ℚ) ≤ (A : ℚ) / B ∧ (A : ℚ) / B < (A / B : Nat) + 1 := by
  refine ⟨Nat.cast_div_le, ?_⟩
  rw [div_lt_iff₀ (by exact_mod_cast hB)]
  have above : A < A / B * B + B := Nat.lt_div_mul_add hB
  have : (A : ℚ) < ((A / B : Nat) : ℚ) * B + B := by exact_mod_cast above
  linarith

/-- The grid point below `m · 2^q` on the grid of step `10^e`, as `gridHit` computes it. -/
theorem gridFloor_bounds (m : Nat) (q e : Int) :
    let below := m * Nat.pow 2 q.toNat * Nat.pow 10 (-e).toNat / (Nat.pow 10 e.toNat * Nat.pow 2 (-q).toNat)
    (below : ℚ) * 10 ^ e ≤ m * 2 ^ q ∧ (m : ℚ) * 2 ^ q < (below + 1) * 10 ^ e := by
  intro below
  have den : 0 < Nat.pow 10 e.toNat * Nat.pow 2 (-q).toNat :=
    Nat.mul_pos (Nat.pow_pos (by norm_num)) (Nat.pow_pos (by norm_num))
  have ratio : ((m * Nat.pow 2 q.toNat * Nat.pow 10 (-e).toNat : Nat) : ℚ) /
      ((Nat.pow 10 e.toNat * Nat.pow 2 (-q).toNat : Nat) : ℚ) = m * 2 ^ q / 10 ^ e := by
    push_cast [Nat.pow_eq]
    rw [← zpow_mul_toNat (by norm_num : (0 : ℚ) < 2) q, ← zpow_mul_toNat (by norm_num : (0 : ℚ) < 10) e]
    field_simp
  have ten : (0 : ℚ) < 10 ^ e := by positivity
  obtain ⟨lo, hi⟩ := floor_ratio (A := m * Nat.pow 2 q.toNat * Nat.pow 10 (-e).toNat) den
  rw [ratio] at lo hi
  exact ⟨(le_div_iff₀ ten).1 lo, (div_lt_iff₀ ten).1 hi⟩

theorem rounds_of_inside {m : Nat} {q : Int} {r : ℚ} (lo : lowerBound m q < r) (hi : r < upperBound m q) :
    Rounds m q r := by
  unfold Rounds
  split
  · exact ⟨lo.le, hi.le⟩
  · exact ⟨lo, hi⟩

theorem gridHit_reads {m : Nat} {q : Int} {k : Nat} {d : Decimal} (hit : gridHit m q k = some d) :
    readsBackAs m q d.digits d.exponent = true := by
  unfold gridHit at hit
  dsimp only at hit
  split at hit
  next below above =>
    split at hit <;> cases hit
    · exact below
    · exact above
    · split <;> assumption
  next below _ => cases hit; exact below
  next _ above => cases hit; exact above
  next => cases hit

theorem gridHit_isSome {m : Nat} {q : Int} {k : Nat}
    (reads : let e := leadingExponent m q - k + 1
      let below := m * Nat.pow 2 q.toNat * Nat.pow 10 (-e).toNat / (Nat.pow 10 e.toNat * Nat.pow 2 (-q).toNat)
      readsBackAs m q below e = true ∨ readsBackAs m q (below + 1) e = true) :
    (gridHit m q k).isSome := by
  unfold gridHit
  dsimp only at reads ⊢
  split
  · split <;> rfl
  · rfl
  · rfl
  · simp_all

/-- Seventeen digits always suffice: the grid of `17`-digit decimals around `m · 2^q` is finer
than the rounding interval, so the nearer of the two grid points around the number lies inside
it. -/
theorem gridHit_seventeen {m : Nat} {q : Int} (legal : Legal m q) : (gridHit m q 17).isSome := by
  apply gridHit_isSome
  dsimp only
  generalize he : leadingExponent m q - (17 : Nat) + 1 = e
  obtain ⟨lo, hi⟩ := gridFloor_bounds m q e
  generalize m * Nat.pow 2 q.toNat * Nat.pow 10 (-e).toNat / (Nat.pow 10 e.toNat * Nat.pow 2 (-q).toNat) = below
    at lo hi ⊢
  have unit : (0 : ℚ) < 2 ^ q := by positivity
  have step : (10 : ℚ) ^ e * 10 ^ 16 ≤ m * 2 ^ q := by
    have lead := leadingExponent_le legal.pos q
    rwa [show leadingExponent m q = e + (16 : Nat) by omega, zpow_add₀ (by norm_num), zpow_natCast] at lead
  have top : (m : ℚ) * 2 ^ q ≤ 2 ^ 53 * 2 ^ q :=
    mul_le_mul_of_nonneg_right (by exact_mod_cast legal.lt.le) unit.le
  -- half a grid step is less than the distance from the number to either end of its interval
  have inLow : lowerBound m q < m * 2 ^ q - 10 ^ e / 2 := by
    rw [lowerBound_eq legal.pos]
    split
    next bottom =>
      rw [bottom.1] at step ⊢
      push_cast at step ⊢
      linarith
    next => linarith
  have inHigh : (m : ℚ) * 2 ^ q + 10 ^ e / 2 < upperBound m q := by
    rw [upperBound_eq]; linarith
  by_cases near : (m : ℚ) * 2 ^ q - below * 10 ^ e ≤ 10 ^ e / 2
  · left
    rw [readsBackAs_iff]
    exact rounds_of_inside (by linarith) (by linarith)
  · right
    rw [readsBackAs_iff]
    push_cast
    exact rounds_of_inside (by linarith) (by linarith)

theorem trim_value (d : Decimal) :
    (d.trim.digits : ℚ) * 10 ^ d.trim.exponent = d.digits * 10 ^ d.exponent := by
  induction d using Decimal.trim.induct with
  | case1 d zeros ih =>
    rw [Decimal.trim, if_pos zeros, ih]
    obtain ⟨c, hc⟩ : 10 ∣ d.digits := Nat.dvd_of_mod_eq_zero zeros.2
    dsimp only
    rw [hc, Nat.mul_div_cancel_left c (by norm_num), zpow_add_one₀ (by norm_num)]
    push_cast
    ring
  | case2 d kept => rw [Decimal.trim, if_neg kept]

theorem shortest_rounds {m : Nat} {q : Int} (legal : Legal m q) :
    Rounds m q ((shortest m q).digits * 10 ^ (shortest m q).exponent) := by
  unfold shortest
  split
  next d found =>
    obtain ⟨i, -, hit⟩ := List.exists_of_findSome?_eq_some found
    rw [trim_value, ← readsBackAs_iff]
    exact gridHit_reads hit
  next missing =>
    have none := List.findSome?_eq_none_iff.1 missing 16 (List.mem_range.2 (by norm_num))
    have some := gridHit_seventeen legal
    simp [none] at some

theorem shortest_pos {m : Nat} {q : Int} (legal : Legal m q) : 0 < (shortest m q).digits := by
  have least := (shortest_rounds legal).pos legal
  rcases Nat.eq_zero_or_pos (shortest m q).digits with zero | pos
  · rw [zero] at least
    simp only [Nat.cast_zero, zero_mul] at least
    exact absurd least (not_le.2 (by positivity))
  · exact pos

end PeerMessaging.Number
