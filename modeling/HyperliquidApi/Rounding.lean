import HyperliquidApi.NearestPoints

/-!
# Decimal rounding

Rounding of rationals to whole numbers and to decimals. Halves go away from zero or to the even
neighbour. A number has `d` decimals when it is a multiple of `10^-d`, and `f` figures when it
is a power of ten times a whole number below `10^f`.
-/
namespace HyperliquidApi.Rounding
open NearestPoints

/-- `std::round` -/
def roundAway (q : ℚ) : ℤ := if 0 ≤ q then round q else -round (-q)

/-- Halves go to the even neighbour. -/
def roundEven (q : ℚ) : ℤ :=
  let f := ⌊q⌋
  if q - f < 1/2 then f
  else if 1/2 < q - f then f + 1
  else if f % 2 = 0 then f else f + 1

def roundTo (d : ℕ) (q : ℚ) : ℚ := roundAway (q * 10^d) / 10^d

def HasDecimals (d : ℕ) (q : ℚ) : Prop := ∃ z : ℤ, q = z / 10^d

def HasFigures (f : ℕ) (q : ℚ) : Prop := ∃ m e : ℤ, |m| < 10^f ∧ q = m * (10 : ℚ)^e

lemma ten_pow_pos (d : ℕ) : (0 : ℚ) < 10^d := by positivity

lemma roundAway_of_nonneg {q : ℚ} (h : 0 ≤ q) : roundAway q = round q := if_pos h

lemma abs_roundAway_sub (q : ℚ) : |(roundAway q : ℚ) - q| ≤ 1/2 := by
  unfold roundAway
  split
  · rw [abs_sub_comm]
    exact abs_sub_round q
  · have hneg := abs_sub_round (-q)
    rw [show -q - (round (-q) : ℚ) = ((-round (-q) : ℤ) : ℚ) - q by push_cast; ring] at hneg
    exact hneg

lemma roundAway_pos_iff {q : ℚ} (h : 0 ≤ q) : 0 < roundAway q ↔ 1/2 ≤ q := by
  rw [roundAway_of_nonneg h, round_eq, Int.lt_iff_add_one_le, Int.le_floor]
  constructor
  · intro hle
    push_cast at hle
    linarith
  · intro hle
    push_cast
    linarith

lemma roundEven_intCast (z : ℤ) : roundEven z = z := by
  simp [roundEven]

lemma abs_roundEven_sub (q : ℚ) : |(roundEven q : ℚ) - q| ≤ 1/2 := by
  have hfloor := Int.floor_le q
  have hnext := Int.lt_floor_add_one q
  unfold roundEven
  dsimp only
  rw [abs_le]
  split_ifs <;> push_cast <;> constructor <;> linarith

lemma hasDecimals_roundTo (d : ℕ) (q : ℚ) : HasDecimals d (roundTo d q) := ⟨roundAway (q * 10^d), rfl⟩

lemma HasDecimals.mono {d d' : ℕ} {q : ℚ} (h : HasDecimals d q) (hd : d ≤ d') :
    HasDecimals d' q := by
  obtain ⟨z, rfl⟩ := h
  refine ⟨z * 10^(d' - d), ?_⟩
  have hsplit : (10 : ℚ)^d' = 10^d * 10^(d' - d) := by rw [← pow_add, Nat.add_sub_cancel' hd]
  have hpos := ten_pow_pos d
  have hpos' := ten_pow_pos (d' - d)
  push_cast
  rw [hsplit]
  field_simp

lemma abs_roundTo_sub (d : ℕ) (q : ℚ) : |roundTo d q - q| ≤ 1/2 / 10^d := by
  have hpos := ten_pow_pos d
  have hscaled : roundTo d q - q = (roundAway (q * 10^d) - q * 10^d) / 10^d := by
    unfold roundTo
    field_simp
  rw [hscaled, abs_div, abs_of_pos hpos]
  exact div_le_div_of_nonneg_right (abs_roundAway_sub _) hpos.le

lemma roundTo_pos_iff {d : ℕ} {q : ℚ} (h : 0 ≤ q) : 0 < roundTo d q ↔ 1/2 ≤ q * 10^d := by
  have hpos := ten_pow_pos d
  rw [← roundAway_pos_iff (mul_nonneg h hpos.le), roundTo, div_pos_iff_of_pos_right hpos]
  exact Int.cast_pos

lemma roundTo_nonneg {d : ℕ} {q : ℚ} (h : 0 ≤ q) : 0 ≤ roundTo d q := by
  have hpos := ten_pow_pos d
  have hround : 0 ≤ roundAway (q * 10^d) := by
    rw [roundAway_of_nonneg (mul_nonneg h hpos.le), round_eq]
    exact Int.floor_nonneg.mpr (by positivity)
  exact div_nonneg (by exact_mod_cast hround) hpos.le

/-- Different numbers with `d` decimals are a unit of the last decimal apart. -/
lemma HasDecimals.apart {d : ℕ} {p q : ℚ} (hp : HasDecimals d p) (hq : HasDecimals d q)
    (hne : p ≠ q) : 1 / 10^d ≤ |p - q| := by
  obtain ⟨z, rfl⟩ := hp
  obtain ⟨w, rfl⟩ := hq
  have hpos := ten_pow_pos d
  have hzw : 1 ≤ |z - w| := by
    apply Int.one_le_abs
    rw [sub_ne_zero]
    rintro rfl
    exact hne rfl
  rw [← sub_div, abs_div, abs_of_pos hpos]
  exact div_le_div_of_nonneg_right (by exact_mod_cast hzw) hpos.le

/-- Half of a unit of the last decimal away, no number with `d` decimals is nearer. -/
lemma HasDecimals.isNearest {d : ℕ} {p q : ℚ} (hp : HasDecimals d p)
    (hhalf : |p - q| ≤ 1/2 / 10^d) : IsNearest {p | HasDecimals d p} q p := by
  refine ⟨hp, ?_⟩
  intro g hg
  by_cases heq : g = p
  · rw [heq]
  · have hapart := HasDecimals.apart hg hp heq
    have htri := abs_sub_le g q p
    have hunit : (1 : ℚ)/10^d = 1/2/10^d + 1/2/10^d := by ring
    rw [abs_sub_comm g q, abs_sub_comm q p] at htri
    rw [abs_sub_comm q p]
    linarith

/-- Rounding takes the nearest number with `d` decimals. -/
theorem isNearest_roundTo (d : ℕ) (q : ℚ) : IsNearest {p | HasDecimals d p} q (roundTo d q) :=
  (hasDecimals_roundTo d q).isNearest (abs_roundTo_sub d q)

/-- Rounding at the last of `f` figures leaves `f` figures, also where it carries into a further
place. -/
lemma hasFigures_roundTo {d f : ℕ} {e : ℤ} {q : ℚ} (hf : 0 < f) (he : e + 1 + d ≤ f)
    (hq : |q| < (10 : ℚ)^(e + 1)) : HasFigures f (roundTo d q) := by
  have hpos := ten_pow_pos d
  have hscaled : |q * 10^d| < 10^f := by
    calc |q * 10^d| = |q| * 10^d := by rw [abs_mul, abs_of_pos hpos]
      _ < (10 : ℚ)^(e + 1) * 10^d := by gcongr
      _ = (10 : ℚ)^(e + 1 + d) := by
          rw [zpow_add₀ (by norm_num) (e + 1), zpow_natCast]
      _ ≤ (10 : ℚ)^(f : ℤ) := zpow_le_zpow_right₀ (by norm_num) he
      _ = 10^f := zpow_natCast _ _
  have hbound : |roundAway (q * 10^d)| ≤ 10^f := by
    have hnear := abs_roundAway_sub (q * 10^d)
    have hhalf : |(roundAway (q * 10^d) : ℚ)| < 10^f + 1 := by
      have htri := abs_sub_abs_le_abs_sub (roundAway (q * 10^d) : ℚ) (q * 10^d)
      linarith
    have hint : |roundAway (q * 10^d)| < 10^f + 1 := by exact_mod_cast hhalf
    omega
  rcases hbound.lt_or_eq with hlt | heq
  · refine ⟨roundAway (q * 10^d), -d, hlt, ?_⟩
    rw [zpow_neg, zpow_natCast]
    rfl
  · obtain ⟨m, hone, hcarry⟩ : ∃ m : ℤ, |m| = 1 ∧ roundAway (q * 10^d) = m * 10^f := by
      rcases eq_or_eq_neg_of_abs_eq heq with h | h
      · exact ⟨1, by simp, by rw [h, one_mul]⟩
      · exact ⟨-1, by simp, by rw [h, neg_one_mul]⟩
    refine ⟨m, f - d, ?_, ?_⟩
    · rw [hone]
      exact one_lt_pow₀ (by norm_num) hf.ne'
    · rw [roundTo, hcarry, zpow_sub₀ (by norm_num), zpow_natCast, zpow_natCast]
      push_cast
      ring

end HyperliquidApi.Rounding
