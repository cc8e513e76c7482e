import HyperliquidApi.NumberGrammar
import HyperliquidApi.PriceGrid

/-!
# Numbers on the wire

The strings of `floatToWire` are part of what is signed. Each denotes its value rounded to eight
decimals, without superfluous zeros and without a sign before a zero, and no other string is ever
written for that number.
-/
namespace HyperliquidApi
open Rounding NearestPoints DecimalText

lemma floatToWire_zero {value : ℚ} (h : rounded 8 value = 0) : floatToWire value = "0" := by
  unfold floatToWire
  dsimp only
  rcases stripZeros_fixedPoint_zero h with hchars | hchars
  · rw [hchars]
    decide
  · rw [hchars]
    exact if_pos (by decide)

/-- Numbers other than zero are written as their digits are stripped. -/
lemma floatToWire_nonzero {value : ℚ} (h : rounded 8 value ≠ 0) :
    floatToWire value = String.ofList (stripZeros (fixedPoint 8 value)) := by
  have hread := decimalValue_stripZeros 8 value
  unfold floatToWire
  dsimp only
  rw [if_neg]
  intro hzero
  have hchars : stripZeros (fixedPoint 8 value) = "-0".toList := by
    rw [← hzero, String.toList_ofList]
  have hminus : decimalValue "-0".toList = some 0 := by decide +kernel
  rw [hchars, hminus] at hread
  exact h (Option.some.inj hread).symm

lemma floatToWire_grammar (value : ℚ) : (floatToWire value).toList ∈ shortDecimal.matches' := by
  by_cases hzero : rounded 8 value = 0
  · rw [floatToWire_zero hzero]
    exact mem_shortDecimal (mem_optional (.inl rfl)) (toDigits_mem_wholeNumber 0)
      (mem_optional (.inl rfl))
  · rw [floatToWire_nonzero hzero, String.toList_ofList]
    exact stripZeros_fixedPoint_mem 8 value

lemma floatToWire_ne_negative_zero (value : ℚ) : floatToWire value ≠ "-0" := by
  unfold floatToWire
  dsimp only
  split_ifs with hminus
  · decide
  · exact hminus

lemma floatToWire_eq_iff (value value' : ℚ) :
    floatToWire value = floatToWire value' ↔ rounded 8 value = rounded 8 value' := by
  constructor
  · intro h
    have hread := floatToWire_rounded value
    rw [h, floatToWire_rounded value'] at hread
    exact (Option.some.inj hread).symm
  · intro h
    by_cases hzero : rounded 8 value = 0
    · rw [floatToWire_zero hzero, floatToWire_zero (h ▸ hzero)]
    · rw [floatToWire_nonzero hzero, floatToWire_nonzero (h ▸ hzero), fixedPoint_congr h hzero]

/-- The wire strings are the canonical decimals of numbers with at most eight decimals. -/
theorem floatToWire_canonical (value : ℚ) :
    decimalValue (floatToWire value).toList = some (rounded 8 value) ∧
    IsNearest {p | HasDecimals 8 p} value (rounded 8 value) ∧
    (decimalValue (floatToWire value).toList = some value ↔ HasDecimals 8 value) ∧
    (floatToWire value).toList ∈ shortDecimal.matches' ∧
    floatToWire value ≠ "-0" ∧
    ∀ value', floatToWire value = floatToWire value' ↔ rounded 8 value = rounded 8 value' := by
  have hexact : decimalValue (floatToWire value).toList = some value ↔ HasDecimals 8 value := by
    rw [floatToWire_rounded, Option.some_inj]
    exact rounded_eq_self_iff
  exact ⟨floatToWire_rounded value, isNearest_rounded 8 value, hexact, floatToWire_grammar value,
    floatToWire_ne_negative_zero value, floatToWire_eq_iff value⟩

example : floatToWire (-1/10^9) = "0" ∧ floatToWire 1200 = "1200" ∧ floatToWire (-3/2) = "-1.5" := by
  decide +kernel

end HyperliquidApi
