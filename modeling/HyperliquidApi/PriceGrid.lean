import HyperliquidApi.DecimalText

/-!
# Prices on the venue's grid

Prices have at most `6 - szDecimals` decimals and are whole numbers or have at most five
significant figures. The arithmetic is exact: doubles are rationals and the logarithm is the
exponent of the largest power of ten not above the price.
-/
namespace HyperliquidApi
open Rounding DecimalText

/-- The loop of `pow10i`: `r *= 10.0`, `n` times. -/
def timesTen : ℕ → ℚ
  | 0 => 1
  | n+1 => timesTen n * 10

def pow10i (n : ℤ) : ℚ := if n < 0 then 1 / timesTen n.natAbs else timesTen n.natAbs

/-- The decimals that five significant figures leave at this price. -/
def sigFigDecimals (px : ℚ) (szDecimals : ℤ) : ℤ :=
  if 0 < px then 4 - Int.log 10 px else 6 - szDecimals

def allowedDecimals (px : ℚ) (szDecimals : ℤ) : ℤ :=
  max 0 (min 8 (min (6 - szDecimals) (sigFigDecimals px szDecimals)))

/-- `std::round(px * pow10i(decimals)) / pow10i(decimals)` -/
def normalizePrice (px : ℚ) (szDecimals : ℤ) : ℚ :=
  let decimals := allowedDecimals px szDecimals
  roundAway (px * pow10i decimals) / pow10i decimals

/-- The same rounding at the decimals of sizes. -/
def normalizeSize (qty : ℚ) (szDecimals : ℤ) : ℚ :=
  roundAway (qty * pow10i szDecimals) / pow10i szDecimals

def floatToWire (value : ℚ) : String :=
  let s := String.ofList (stripZeros (fixedPoint 8 value))
  if s = "-0" then "0" else s

/-- What the venue takes as a price. -/
def OnGrid (szDecimals : ℕ) (p : ℚ) : Prop :=
  HasDecimals (6 - szDecimals) p ∧ ((∃ z : ℤ, p = z) ∨ HasFigures 5 p)

lemma timesTen_eq (n : ℕ) : timesTen n = 10^n := by
  induction n with
  | zero => rfl
  | succ n ih => rw [timesTen, ih, pow_succ]

lemma pow10i_natCast (n : ℕ) : pow10i n = 10^n := by
  have hn : ¬ (n : ℤ) < 0 := by omega
  rw [pow10i, if_neg hn, timesTen_eq, Int.natAbs_natCast]

lemma normalizeSize_eq (qty : ℚ) (sd : ℕ) : normalizeSize qty sd = roundTo sd qty := by
  rw [normalizeSize, pow10i_natCast, roundTo]

/-- The wire text denotes the value at eight decimals. -/
lemma floatToWire_rounded (value : ℚ) :
    decimalValue (floatToWire value).toList = some (rounded 8 value) := by
  have hread := decimalValue_stripZeros 8 value
  unfold floatToWire
  dsimp only
  split_ifs with hzero
  · have hchars : stripZeros (fixedPoint 8 value) = "-0".toList := by
      rw [← hzero, String.toList_ofList]
    rw [hchars] at hread
    have hminus : decimalValue "-0".toList = decimalValue "0".toList := by decide +kernel
    rw [← hminus]
    exact hread
  · rw [String.toList_ofList]
    exact hread

lemma floatToWire_value {value : ℚ} (h : HasDecimals 8 value) :
    decimalValue (floatToWire value).toList = some value := by
  rw [floatToWire_rounded, rounded_of_hasDecimals h]

/-- At every price the decimals are those of the size, or five figures use them up. -/
lemma allowedDecimals_cases {px : ℚ} (hpx : 0 < px) {sd : ℕ} (hsd : sd ≤ 6) :
    ∃ d : ℕ, allowedDecimals px sd = d ∧ d ≤ 6 - sd ∧
      ((d = 6 - sd ∧ Int.log 10 px + d ≤ 4) ∨ (d < 6 - sd ∧ Int.log 10 px + d = 4) ∨
        (d = 0 ∧ 4 < Int.log 10 px)) := by
  have hdef : allowedDecimals px sd = max 0 (min 8 (min (6 - (sd : ℤ)) (4 - Int.log 10 px))) := by
    rw [allowedDecimals, sigFigDecimals, if_pos hpx]
  obtain ⟨d, hd⟩ := Int.eq_ofNat_of_zero_le (show 0 ≤ allowedDecimals px sd by rw [hdef]; omega)
  refine ⟨d, hd, ?_⟩
  rw [hdef] at hd
  omega

lemma normalizePrice_eq {px : ℚ} {sd d : ℕ} (hd : allowedDecimals px sd = d) :
    normalizePrice px sd = roundTo d px := by
  rw [normalizePrice, hd, pow10i_natCast, roundTo]

lemma abs_lt_zpow_log_succ {px : ℚ} (hpx : 0 < px) : |px| < (10 : ℚ)^(Int.log 10 px + 1) := by
  rw [abs_of_pos hpx]
  exact_mod_cast Int.lt_zpow_succ_log_self (b := 10) (by norm_num) px

/-- At five figures the price has ten thousand units of its last decimal. -/
lemma ten_thousand_le {px : ℚ} (hpx : 0 < px) {d : ℕ} (hd : 4 ≤ Int.log 10 px + d) :
    10000 ≤ px * 10^d := by
  have hlog : (10 : ℚ)^Int.log 10 px ≤ px := by
    exact_mod_cast Int.zpow_log_le_self (b := 10) (by norm_num) hpx
  calc (10000 : ℚ) = (10 : ℚ)^(4 : ℤ) := by norm_num
    _ ≤ (10 : ℚ)^(Int.log 10 px + d) := zpow_le_zpow_right₀ (by norm_num) hd
    _ = (10 : ℚ)^Int.log 10 px * 10^d := by rw [zpow_add₀ (by norm_num), zpow_natCast]
    _ ≤ px * 10^d := by gcongr

theorem normalizePrice_onGrid {px : ℚ} (hpx : 0 < px) {sd : ℕ} (hsd : sd ≤ 6) :
    OnGrid sd (normalizePrice px sd) := by
  obtain ⟨d, hd, hle, hcases⟩ := allowedDecimals_cases hpx hsd
  rw [normalizePrice_eq hd]
  refine ⟨(hasDecimals_roundTo d px).mono hle, ?_⟩
  rcases hcases with ⟨_, hfigures⟩ | ⟨_, hfigures⟩ | ⟨rfl, _⟩
  · exact .inr (hasFigures_roundTo (by norm_num) (by push_cast; omega) (abs_lt_zpow_log_succ hpx))
  · exact .inr (hasFigures_roundTo (by norm_num) (by push_cast; omega) (abs_lt_zpow_log_succ hpx))
  · obtain ⟨z, hz⟩ := hasDecimals_roundTo 0 px
    exact .inl ⟨z, by simpa using hz⟩

/-- Normalisation makes a price zero exactly below half of the finest tick. -/
theorem normalizePrice_pos_iff {px : ℚ} (hpx : 0 < px) {sd : ℕ} (hsd : sd ≤ 6) :
    0 < normalizePrice px sd ↔ 1/2 ≤ px * 10^(6 - sd) := by
  obtain ⟨d, hd, hle, hcases⟩ := allowedDecimals_cases hpx hsd
  rw [normalizePrice_eq hd, roundTo_pos_iff hpx.le]
  have hmono : px * 10^d ≤ px * 10^(6 - sd) := by
    gcongr
    norm_num
  rcases hcases with ⟨rfl, _⟩ | hlarge
  · rfl
  · have hlog : 4 ≤ Int.log 10 px + d := by omega
    have hbig := ten_thousand_le hpx hlog
    constructor
    · exact fun h => h.trans hmono
    · intro _
      linarith

end HyperliquidApi
