import PeerMessaging.Number.Read
import PeerMessaging.Number.Shortest
import Mathlib
/-!
# Reading a decimal back

A finite nonzero binary64 number is `m · 2^q` with a legal significand and exponent. The
rationals that read as it form its rounding interval: those strictly between the midpoints to its
two neighbours, and the midpoints themselves when `m` is even; at the bottom of a binade the gap
below is half as wide. The printer's exact test `readsBackAs` is membership in that interval, and
the reader, which rounds a ratio to the nearest number with ties to even, answers `m · 2^q` for
every decimal inside it.
-/

namespace PeerMessaging.Number

theorem compare_congr {α β : Type} [LinearOrder α] [LinearOrder β] {a b : α} {c d : β}
    (lt : a < b ↔ c < d) (eq : a = b ↔ c = d) : compare a b = compare c d := by
  rcases lt_trichotomy a b with less | same | more
  · rw [compare_lt_iff_lt.2 less, compare_lt_iff_lt.2 (lt.1 less)]
  · rw [compare_eq_iff_eq.2 same, compare_eq_iff_eq.2 (eq.1 same)]
  · have notLess : ¬ c < d := fun h => absurd (lt.2 h) (not_lt.2 more.le)
    have notSame : c ≠ d := fun h => absurd (eq.2 h) (ne_of_gt more)
    rw [compare_gt_iff_gt.2 more, compare_gt_iff_gt.2 (lt_of_le_of_ne (not_lt.1 notLess) (Ne.symm notSame))]

theorem zpow_mul_toNat {b : ℚ} (pos : 0 < b) (p : Int) :
    b ^ p * b ^ (-p).toNat = b ^ p.toNat := by
  rw [← zpow_natCast, ← zpow_natCast, ← zpow_add₀ pos.ne']
  congr 1
  omega

/-- Clearing the negative exponents keeps the order of `x · 2^p` and `s · 10^e`. -/
theorem compareScaled_eq (x : Nat) (p : Int) (s : Nat) (e : Int) :
    compareScaled x p s e = compare ((x : ℚ) * 2 ^ p) ((s : ℚ) * 10 ^ e) := by
  have scale : (0 : ℚ) < 2 ^ (-p).toNat * 10 ^ (-e).toNat := by positivity
  have left : ((x * Nat.pow 2 p.toNat * Nat.pow 10 (-e).toNat : Nat) : ℚ) =
      (x : ℚ) * 2 ^ p * (2 ^ (-p).toNat * 10 ^ (-e).toNat) := by
    rw [show (x : ℚ) * 2 ^ p * (2 ^ (-p).toNat * 10 ^ (-e).toNat) =
      x * (2 ^ p * 2 ^ (-p).toNat) * 10 ^ (-e).toNat by ring, zpow_mul_toNat (by norm_num) p]
    simp [Nat.pow_eq]
  have right : ((s * Nat.pow 10 e.toNat * Nat.pow 2 (-p).toNat : Nat) : ℚ) =
      (s : ℚ) * 10 ^ e * (2 ^ (-p).toNat * 10 ^ (-e).toNat) := by
    rw [show (s : ℚ) * 10 ^ e * (2 ^ (-p).toNat * 10 ^ (-e).toNat) =
      s * (10 ^ e * 10 ^ (-e).toNat) * 2 ^ (-p).toNat by ring, zpow_mul_toNat (by norm_num) e]
    simp [Nat.pow_eq]
  have castLt (a b : Nat) : (a : ℚ) < b ↔ a < b := Nat.cast_lt
  have castInj (a b : Nat) : (a : ℚ) = b ↔ a = b := Nat.cast_inj
  unfold compareScaled
  apply compare_congr
  · rw [← castLt, left, right, mul_lt_mul_iff_of_pos_right scale]
  · rw [← castInj, left, right, mul_left_inj' scale.ne']


/-- The significand and exponent of a finite nonzero number. -/
structure Legal (m : Nat) (q : Int) : Prop where
  pos : 0 < m
  lt : m < 2 ^ 53
  normal : 2 ^ 52 ≤ m ∨ q = minExponent
  low : minExponent ≤ q
  high : q ≤ maxExponent

def lowerBound (m : Nat) (q : Int) : ℚ := (lowerEnd m q : ℚ) * 2 ^ (q - 2)

def upperBound (m : Nat) (q : Int) : ℚ := (4 * m + 2 : ℚ) * 2 ^ (q - 2)

/-- The rationals that read as `m · 2^q`: those strictly between the midpoints to its neighbours,
and the midpoints too when `m` is even. -/
def Rounds (m : Nat) (q : Int) (r : ℚ) : Prop :=
  if m % 2 = 0 then lowerBound m q ≤ r ∧ r ≤ upperBound m q
  else lowerBound m q < r ∧ r < upperBound m q

theorem readsBackAs_iff (m : Nat) (q : Int) (s : Nat) (e : Int) :
    readsBackAs m q s e = true ↔ Rounds m q (s * 10 ^ e) := by
  unfold readsBackAs Rounds lowerBound upperBound
  rw [compareScaled_eq, compareScaled_eq]
  split <;> simp [compare_lt_iff_lt, compare_gt_iff_gt]

theorem le_ratio_iff {N D : Nat} (hD : 0 < D) (t : Int) :
    D * Nat.pow 2 t.toNat ≤ N * Nat.pow 2 (-t).toNat ↔ (2 : ℚ) ^ t ≤ N / D := by
  have scale : (0 : ℚ) < 2 ^ (-t).toNat := by positivity
  have left : ((D * Nat.pow 2 t.toNat : Nat) : ℚ) = 2 ^ t * D * 2 ^ (-t).toNat := by
    rw [mul_right_comm, zpow_mul_toNat (by norm_num)]
    push_cast [Nat.pow_eq]
    ring
  have right : ((N * Nat.pow 2 (-t).toNat : Nat) : ℚ) = N * 2 ^ (-t).toNat := by
    push_cast [Nat.pow_eq]
    rfl
  have castLe (a b : Nat) : (a : ℚ) ≤ b ↔ a ≤ b := Nat.cast_le
  rw [← castLe, left, right, mul_le_mul_iff_of_pos_right scale,
    le_div_iff₀ (by exact_mod_cast hD)]

theorem two_pow_log2_le {n : Nat} (pos : 0 < n) : (2 : ℚ) ^ (n.log2 : Int) ≤ n := by
  rw [zpow_natCast]
  exact_mod_cast Nat.log2_self_le (by omega)

theorem lt_two_pow_log2 (n : Nat) : (n : ℚ) < 2 ^ (n.log2 + 1 : Int) := by
  rw [show (n.log2 + 1 : Int) = ((n.log2 + 1 : Nat) : Int) by push_cast; rfl, zpow_natCast]
  exact_mod_cast Nat.lt_log2_self

/-- `floorLog2Ratio` is the floor of the binary logarithm of the ratio. -/
theorem floorLog2Ratio_spec {N D : Nat} (hN : 0 < N) (hD : 0 < D) :
    (2 : ℚ) ^ floorLog2Ratio N D ≤ N / D ∧ (N / D : ℚ) < 2 ^ (floorLog2Ratio N D + 1) := by
  have two : (0 : ℚ) < 2 := by norm_num
  have den : (0 : ℚ) < D := by exact_mod_cast hD
  -- the ratio lies within a factor of two of `2^(log₂ N - log₂ D)`
  have above : (N / D : ℚ) < 2 ^ ((N.log2 : Int) - D.log2 + 1) := by
    rw [div_lt_iff₀ den]
    calc (N : ℚ) < 2 ^ (N.log2 + 1 : Int) := lt_two_pow_log2 N
      _ = 2 ^ ((N.log2 : Int) - D.log2 + 1) * 2 ^ (D.log2 : Int) := by
        rw [← zpow_add₀ two.ne']; congr 1; ring
      _ ≤ 2 ^ ((N.log2 : Int) - D.log2 + 1) * D := by
        gcongr; exact two_pow_log2_le hD
  have below : (2 : ℚ) ^ ((N.log2 : Int) - D.log2 - 1) < N / D := by
    rw [lt_div_iff₀ den]
    calc (2 : ℚ) ^ ((N.log2 : Int) - D.log2 - 1) * D
        < 2 ^ ((N.log2 : Int) - D.log2 - 1) * 2 ^ (D.log2 + 1 : Int) := by
          gcongr; exact lt_two_pow_log2 D
      _ = 2 ^ (N.log2 : Int) := by rw [← zpow_add₀ two.ne']; congr 1; ring
      _ ≤ N := two_pow_log2_le hN
  unfold floorLog2Ratio
  dsimp only
  split
  next reached =>
    exact ⟨(le_ratio_iff hD _).1 reached, above⟩
  next short =>
    rw [ge_iff_le, le_ratio_iff hD] at short
    refine ⟨below.le, ?_⟩
    simpa using lt_of_not_ge short

/-- Rounding `a / b` to the nearest whole number, a tie going to the even one, as `roundRatio`
does it: `k` is the answer when `a / b` is within a half of `k`, and a half away only for an
even `k`. -/
theorem roundHalfEven_eq {a b k : Nat} (hb : 0 < b)
    (lo : (k : ℚ) - 1 / 2 ≤ a / b) (hi : (a / b : ℚ) ≤ k + 1 / 2)
    (loTie : (a / b : ℚ) = k - 1 / 2 → k % 2 = 0) (hiTie : (a / b : ℚ) = k + 1 / 2 → k % 2 = 0) :
    (if 2 * (a % b) > b ∨ (2 * (a % b) = b ∧ a / b % 2 = 1) then a / b + 1 else a / b) = k := by
  have den : (0 : ℚ) < b := by exact_mod_cast hb
  -- the same four facts with the denominator cleared
  have lo' : 2 * k * b ≤ 2 * a + b := by
    have := (le_div_iff₀ den).1 lo
    exact_mod_cast (by linarith : (2 * k * b : ℚ) ≤ 2 * a + b)
  have hi' : 2 * a ≤ (2 * k + 1) * b := by
    have := (div_le_iff₀ den).1 hi
    exact_mod_cast (by linarith : (2 * a : ℚ) ≤ (2 * k + 1) * b)
  have loTie' : 2 * k * b = 2 * a + b → k % 2 = 0 := fun tie => loTie (by
    have : (2 * k * b : ℚ) = 2 * a + b := by exact_mod_cast tie
    field_simp
    linarith)
  have hiTie' : 2 * a = (2 * k + 1) * b → k % 2 = 0 := fun tie => hiTie (by
    have : (2 * a : ℚ) = (2 * k + 1) * b := by exact_mod_cast tie
    field_simp
    linarith)
  have whole := Nat.div_add_mod a b
  have rest := Nat.mod_lt a hb
  generalize a / b = m at *
  generalize a % b = r at *
  subst whole
  have m_le : m ≤ k := by
    by_contra more
    have : b * (k + 1) ≤ b * m := Nat.mul_le_mul_left b (by omega)
    nlinarith
  have k_le : k ≤ m + 1 := by
    by_contra more
    have : b * (m + 2) ≤ b * k := Nat.mul_le_mul_left b (by omega)
    nlinarith
  obtain rfl | rfl : k = m ∨ k = m + 1 := by omega
  · -- `k` is the quotient: the remainder is at most a half, and exactly a half only for even `k`
    have half : 2 * r ≤ b := by nlinarith
    have notUp : ¬(2 * r > b ∨ (2 * r = b ∧ k % 2 = 1)) := by
      rintro (beyond | ⟨tie, odd⟩)
      · omega
      · have := hiTie' (by rw [← tie]; ring)
        omega
    rw [if_neg notUp]
  · -- `k` is one above the quotient: the remainder is at least a half
    have half : b ≤ 2 * r := by nlinarith
    have up : 2 * r > b ∨ (2 * r = b ∧ m % 2 = 1) := by
      rcases Nat.lt_or_eq_of_le half with beyond | tie
      · exact .inl beyond
      · have := loTie' (by rw [tie]; ring)
        exact .inr ⟨tie.symm, by omega⟩
    rw [if_pos up]

theorem scaled_ratio {N D : Nat} (hD : 0 < D) (p : Int) :
    ((N * Nat.pow 2 (-p).toNat : Nat) : ℚ) / ((D * Nat.pow 2 p.toNat : Nat) : ℚ) = N / D / 2 ^ p := by
  have den : (D : ℚ) ≠ 0 := by exact_mod_cast hD.ne'
  push_cast [Nat.pow_eq]
  rw [← zpow_mul_toNat (by norm_num : (0 : ℚ) < 2) p]
  field_simp

theorem lowerBound_eq {m : Nat} (pos : 0 < m) (q : Int) :
    lowerBound m q = (if m = 2 ^ 52 ∧ minExponent < q then (m : ℚ) - 1 / 4 else m - 1 / 2) * 2 ^ q := by
  have quarter : (2 : ℚ) ^ (q - 2) = 2 ^ q / 4 := by
    rw [zpow_sub₀ (by norm_num)]; norm_num
  unfold lowerBound lowerEnd
  rw [show Nat.pow 2 fractionBits = 2 ^ 52 from rfl]
  split
  · rw [Nat.cast_sub (by omega), quarter]; push_cast; ring
  · rw [Nat.cast_sub (by omega), quarter]; push_cast; ring

theorem upperBound_eq (m : Nat) (q : Int) : upperBound m q = ((m : ℚ) + 1 / 2) * 2 ^ q := by
  unfold upperBound
  rw [zpow_sub₀ (by norm_num)]
  ring

theorem Rounds.bounds {m : Nat} {q : Int} {r : ℚ} (rounds : Rounds m q r) :
    lowerBound m q ≤ r ∧ r ≤ upperBound m q ∧
      (r = lowerBound m q → m % 2 = 0) ∧ (r = upperBound m q → m % 2 = 0) := by
  unfold Rounds at rounds
  split at rounds
  next even => exact ⟨rounds.1, rounds.2, fun _ => even, fun _ => even⟩
  next odd =>
    exact ⟨rounds.1.le, rounds.2.le, fun tie => absurd tie (ne_of_gt rounds.1),
      fun tie => absurd tie (ne_of_lt rounds.2)⟩

theorem Rounds.near {m : Nat} {q : Int} {r : ℚ} (pos : 0 < m) (rounds : Rounds m q r) :
    ((m : ℚ) - 1 / 2) * 2 ^ q ≤ r ∧ r ≤ ((m : ℚ) + 1 / 2) * 2 ^ q ∧
      (r = ((m : ℚ) - 1 / 2) * 2 ^ q → m % 2 = 0) ∧ (r = ((m : ℚ) + 1 / 2) * 2 ^ q → m % 2 = 0) := by
  obtain ⟨lo, hi, loTie, hiTie⟩ := rounds.bounds
  rw [upperBound_eq] at hi hiTie
  have unit : (0 : ℚ) < 2 ^ q := by positivity
  rw [lowerBound_eq pos] at lo loTie
  by_cases bottom : m = 2 ^ 52 ∧ minExponent < q
  · -- at the bottom of a binade the gap below is halved, so the lower end is never reached
    rw [if_pos bottom] at lo
    refine ⟨by nlinarith, hi, fun tie => ?_, hiTie⟩
    nlinarith
  · rw [if_neg bottom] at lo loTie
    exact ⟨lo, hi, loTie, hiTie⟩

theorem floorLog2Ratio_eq {N D : Nat} (hN : 0 < N) (hD : 0 < D) {e : Int}
    (lo : (2 : ℚ) ^ e ≤ N / D) (hi : (N / D : ℚ) < 2 ^ (e + 1)) : floorLog2Ratio N D = e := by
  have two : (1 : ℚ) < 2 := by norm_num
  obtain ⟨tl, tu⟩ := floorLog2Ratio_spec hN hD
  have below : floorLog2Ratio N D < e + 1 := (zpow_lt_zpow_iff_right₀ two).1 (tl.trans_lt hi)
  have above : e < floorLog2Ratio N D + 1 := (zpow_lt_zpow_iff_right₀ two).1 (lo.trans_lt tu)
  omega

theorem roundRatio_eq {N D k : Nat} {p : Int} (hN : 0 < N) (hD : 0 < D) (negative : Bool)
    (exponent : max (floorLog2Ratio N D - fractionBits) minExponent = p)
    (lo : (k : ℚ) - 1 / 2 ≤ N / D / 2 ^ p) (hi : (N / D / 2 ^ p : ℚ) ≤ k + 1 / 2)
    (loTie : (N / D / 2 ^ p : ℚ) = k - 1 / 2 → k % 2 = 0)
    (hiTie : (N / D / 2 ^ p : ℚ) = k + 1 / 2 → k % 2 = 0) :
    roundRatio negative N D = if k = Nat.pow 2 (fractionBits + 1)
      then ofParts negative (Nat.pow 2 fractionBits) (p + 1) else ofParts negative k p := by
  have scale : 0 < D * Nat.pow 2 p.toNat := Nat.mul_pos hD (Nat.pow_pos (by norm_num))
  unfold roundRatio
  rw [if_neg (by omega)]
  dsimp only
  rw [exponent, roundHalfEven_eq (k := k) scale] <;> rw [scaled_ratio hD]
  exacts [lo, hi, loTie, hiTie]

/-- Reading a ratio that lies in the rounding interval of a legal `m · 2^q` gives that number. -/
theorem roundRatio_of_rounds {N D m : Nat} {q : Int} (hN : 0 < N) (hD : 0 < D) (legal : Legal m q)
    (rounds : Rounds m q (N / D)) (negative : Bool) :
    roundRatio negative N D = ofParts negative m q := by
  have unit : (0 : ℚ) < 2 ^ q := by positivity
  have bounds := rounds.bounds
  obtain ⟨lo, hi, loTie, hiTie⟩ := rounds.near legal.pos
  have top : ((m : ℚ) + 1 / 2) < 2 ^ 53 := by
    have : (m : ℚ) + 1 ≤ 2 ^ 53 := by exact_mod_cast legal.lt
    linarith
  set r := (N / D : ℚ) with hr
  have pow52 : (2 : ℚ) ^ (q + 52) = 2 ^ 52 * 2 ^ q := by rw [zpow_add₀ (by norm_num), mul_comm]; norm_num
  by_cases carry : m = 2 ^ 52 ∧ minExponent < q ∧ r < 2 ^ 52 * 2 ^ q
  · -- just below a power of two the ratio rounds up to `2^53 · 2^(q-1)`, into the next binade
    obtain ⟨rfl, above, short⟩ := carry
    have pow51 : (2 : ℚ) ^ (q + 51) = 2 ^ 51 * 2 ^ q := by rw [zpow_add₀ (by norm_num), mul_comm]; norm_num
    have least : ((2 ^ 52 : Nat) - 1 / 4 : ℚ) * 2 ^ q ≤ r := by
      have := bounds.1
      rwa [lowerBound_eq legal.pos, if_pos ⟨rfl, above⟩] at this
    have binade : floorLog2Ratio N D = q + 51 := by
      refine floorLog2Ratio_eq hN hD ?_ ?_
      · rw [pow51]; push_cast at least; nlinarith
      · rw [show q + 51 + 1 = q + 52 by ring, pow52]; exact short
    have exponent : max (floorLog2Ratio N D - fractionBits) minExponent = q - 1 := by
      rw [binade]; simp only [fractionBits, minExponent] at above ⊢; omega
    have half : (2 : ℚ) ^ (q - 1) = 2 ^ q / 2 := by rw [zpow_sub₀ (by norm_num)]; norm_num
    rw [roundRatio_eq (k := 2 ^ 53) hN hD negative exponent]
    · rw [if_pos (show 2 ^ 53 = Nat.pow 2 (fractionBits + 1) from rfl), show q - 1 + 1 = q by omega]
      rfl
    all_goals rw [← hr, half]
    · rw [le_div_iff₀ (by positivity)]; push_cast at least ⊢; linarith
    · rw [div_le_iff₀ (by positivity)]; push_cast; nlinarith
    · intro _; decide
    · intro _; decide
  · -- otherwise the exponent is `q` and the ratio rounds to `m`
    have exponent : max (floorLog2Ratio N D - fractionBits) minExponent = q := by
      rcases le_or_gt (2 ^ 52 * 2 ^ q) r with big | small
      · -- a normal number: the ratio lies in the binade `[2^(q+52), 2^(q+53))`
        have binade : floorLog2Ratio N D = q + 52 := by
          refine floorLog2Ratio_eq hN hD (pow52 ▸ big) ?_
          have pow53 : (2 : ℚ) ^ (q + 52 + 1) = 2 ^ 53 * 2 ^ q := by
            rw [show q + 52 + 1 = q + 53 by ring, zpow_add₀ (by norm_num), mul_comm]; norm_num
          rw [pow53]; nlinarith
        have := legal.low
        rw [binade]; simp only [fractionBits, minExponent] at this ⊢; omega
      · -- below `2^52 · 2^q` only a subnormal number is left, at the least exponent
        have least : q = minExponent := by
          by_contra inside
          have normal : 2 ^ 52 ≤ m := legal.normal.resolve_right inside
          have higher : 2 ^ 52 + 1 ≤ m := by
            by_contra same
            exact carry ⟨by omega, lt_of_le_of_ne legal.low (Ne.symm inside), small⟩
          have : ((2 ^ 52 + 1 : Nat) : ℚ) ≤ m := by exact_mod_cast higher
          push_cast at this
          nlinarith
        have below : floorLog2Ratio N D < q + 52 := by
          rw [← zpow_lt_zpow_iff_right₀ (by norm_num : (1 : ℚ) < 2), pow52]
          exact (floorLog2Ratio_spec hN hD).1.trans_lt small
        rw [least] at below ⊢; simp only [fractionBits, minExponent] at below ⊢; omega
    rw [roundRatio_eq (k := m) hN hD negative exponent]
    · rw [if_neg (by have := legal.lt; simp only [Nat.pow_eq, fractionBits]; omega)]
    all_goals rw [← hr]
    · rw [le_div_iff₀ unit]; exact lo
    · rw [div_le_iff₀ unit]; exact hi
    · intro tie; exact loTie (by rw [div_eq_iff unit.ne'] at tie; exact tie)
    · intro tie; exact hiTie (by rw [div_eq_iff unit.ne'] at tie; exact tie)

theorem one_le_decimalLength (n : Nat) : 1 ≤ decimalLength n := by
  rw [decimalLength]; split <;> omega

theorem decimalLength_bounds {n : Nat} (pos : 0 < n) :
    10 ^ (decimalLength n - 1) ≤ n ∧ n < 10 ^ decimalLength n := by
  induction n using Nat.strong_induction_on with
  | _ n ih =>
    rw [decimalLength]
    split
    · simp only [Nat.sub_self, pow_zero, pow_one]; omega
    · have shorter := ih (n / 10) (by omega) (by omega)
      have longer : 10 ^ decimalLength (n / 10) = 10 ^ (decimalLength (n / 10) - 1) * 10 := by
        rw [← pow_succ]; congr 1; have := one_le_decimalLength (n / 10); omega
      rw [Nat.add_sub_cancel, pow_succ]
      omega

theorem Rounds.pos {m : Nat} {q : Int} {r : ℚ} (legal : Legal m q) (rounds : Rounds m q r) :
    (2 : ℚ) ^ (q - 1) ≤ r := by
  have lo := (rounds.near legal.pos).1
  have one : (1 : ℚ) ≤ m := by exact_mod_cast legal.pos
  rw [zpow_sub₀ (by norm_num), zpow_one]
  have : (0 : ℚ) < 2 ^ q := by positivity
  nlinarith

theorem Rounds.lt {m : Nat} {q : Int} {r : ℚ} (legal : Legal m q) (rounds : Rounds m q r) :
    r < 2 ^ (1024 : Int) := by
  have hi := (rounds.near legal.pos).2.1
  have top : (m : ℚ) + 1 ≤ 2 ^ 53 := by exact_mod_cast legal.lt
  have half : (0 : ℚ) ≤ (m : ℚ) + 1 / 2 := by positivity
  have scale : (0 : ℚ) < 2 ^ (971 : Int) := by positivity
  have unit : (2 : ℚ) ^ q ≤ 2 ^ (971 : Int) :=
    zpow_le_zpow_right₀ (by norm_num) legal.high
  calc r ≤ ((m : ℚ) + 1 / 2) * 2 ^ q := hi
    _ ≤ ((m : ℚ) + 1 / 2) * 2 ^ (971 : Int) := mul_le_mul_of_nonneg_left unit half
    _ < 2 ^ 53 * 2 ^ (971 : Int) := mul_lt_mul_of_pos_right (by linarith) scale
    _ = 2 ^ (1024 : Int) := by rw [← zpow_natCast, ← zpow_add₀ (by norm_num)]; congr 1

theorem powers_apart_low : (2 : ℚ) ^ (1075 : Int) < 10 ^ (331 : Int) := by
  have apart : ((2 ^ 1075 : Nat) : ℚ) < ((10 ^ 331 : Nat) : ℚ) := Nat.cast_lt.2 (by decide +kernel)
  simpa only [Nat.cast_pow, Nat.cast_ofNat, ← zpow_natCast] using apart

theorem powers_apart_high : (2 : ℚ) ^ (1024 : Int) < 10 ^ (309 : Int) := by
  have apart : ((2 ^ 1024 : Nat) : ℚ) < ((10 ^ 309 : Nat) : ℚ) := Nat.cast_lt.2 (by decide +kernel)
  simpa only [Nat.cast_pow, Nat.cast_ofNat, ← zpow_natCast] using apart

/-- Reading a decimal in the rounding interval of a legal `m · 2^q` gives that number: neither of
the shortcuts for far too large or too small exponents is taken. -/
theorem roundDecimal_of_rounds {s m : Nat} {e q : Int} (legal : Legal m q)
    (rounds : Rounds m q (s * 10 ^ e)) (negative : Bool) :
    roundDecimal negative s e = ofParts negative m q := by
  have least := rounds.pos legal
  have most := rounds.lt legal
  have tiny : (2 : ℚ) ^ (-1075 : Int) ≤ 2 ^ (q - 1) :=
    zpow_le_zpow_right₀ (by norm_num) (by have := legal.low; simp only [minExponent] at this; omega)
  have pos : 0 < s := by
    rcases Nat.eq_zero_or_pos s with zero | pos
    · subst zero; simp at least; linarith [show (0 : ℚ) < 2 ^ (q - 1) by positivity]
    · exact pos
  obtain ⟨lower, upper⟩ := decimalLength_bounds pos
  have lower' : (10 : ℚ) ^ ((decimalLength s : Int) - 1) ≤ s := by
    rw [show (decimalLength s : Int) - 1 = ((decimalLength s - 1 : Nat) : Int) by
      have := one_le_decimalLength s; omega, zpow_natCast]
    exact_mod_cast lower
  have upper' : (s : ℚ) < 10 ^ (decimalLength s : Int) := by
    rw [zpow_natCast]; exact_mod_cast upper
  have ten : (0 : ℚ) < 10 ^ e := by positivity
  unfold roundDecimal
  rw [if_neg pos.ne', if_neg, if_neg]
  · apply roundRatio_of_rounds (by simp only [Nat.pow_eq]; positivity) (by simp only [Nat.pow_eq]; positivity) legal
    have ratio : ((s * Nat.pow 10 e.toNat : Nat) : ℚ) / (Nat.pow 10 (-e).toNat : Nat) = s * 10 ^ e := by
      push_cast [Nat.pow_eq]
      rw [div_eq_iff (by positivity), mul_assoc, ← zpow_mul_toNat (by norm_num : (0 : ℚ) < 10) e]
    rw [ratio]
    exact rounds
  · -- the value is at least `2^-1075`, far above `10^-331`
    intro small
    have fewer : (10 : ℚ) ^ (e + decimalLength s) ≤ 10 ^ (-331 : Int) :=
      zpow_le_zpow_right₀ (by norm_num) (by omega)
    have bound : (10 : ℚ) ^ (-331 : Int) < 2 ^ (-1075 : Int) := by
      rw [zpow_neg, zpow_neg, inv_lt_inv₀ (by positivity) (by positivity)]
      exact_mod_cast powers_apart_low
    have below : (s : ℚ) * 10 ^ e < 10 ^ (e + decimalLength s) := by
      rw [zpow_add₀ (by norm_num), mul_comm (10 ^ e)]
      exact mul_lt_mul_of_pos_right upper' ten
    linarith
  · -- the value is below `2^1024`, far below `10^309`
    intro large
    have more : (10 : ℚ) ^ (309 : Int) ≤ 10 ^ (e + ((decimalLength s : Int) - 1)) :=
      zpow_le_zpow_right₀ (by norm_num) (by omega)
    have bound : (2 : ℚ) ^ (1024 : Int) < 10 ^ (309 : Int) := by exact_mod_cast powers_apart_high
    have above : (10 : ℚ) ^ (e + ((decimalLength s : Int) - 1)) ≤ s * 10 ^ e := by
      rw [zpow_add₀ (by norm_num), mul_comm (10 ^ e)]
      exact mul_le_mul_of_nonneg_right lower' ten.le
    exact absurd (lt_of_le_of_lt (more.trans above) (most.trans bound)) (lt_irrefl _)

end PeerMessaging.Number
