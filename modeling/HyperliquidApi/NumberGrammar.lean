import HyperliquidApi.DecimalText

/-!
# The grammar of short decimals

Decimals without superfluous zeros: a whole number that begins with a zero only when it is zero,
and behind a point at least one digit, the last of them not a zero.
-/
namespace HyperliquidApi.DecimalText
open Rounding NearestPoints RegularExpression

/-- One of these letters. -/
def oneOf {α : Type*} : List α → RegularExpression α
  | [] => 0
  | a :: as => char a + oneOf as

def optional {α : Type*} (P : RegularExpression α) : RegularExpression α := 1 + P

def nonzeroDigits : List Char := ['1', '2', '3', '4', '5', '6', '7', '8', '9']

def digits : List Char := '0' :: nonzeroDigits

/-- `0|[1-9][0-9]*` -/
def wholeNumber : RegularExpression Char := char '0' + oneOf nonzeroDigits * star (oneOf digits)

/-- `\.[0-9]*[1-9]` -/
def fractionPart : RegularExpression Char := char '.' * (star (oneOf digits) * oneOf nonzeroDigits)

/-- `-?(0|[1-9][0-9]*)(\.[0-9]*[1-9])?` -/
def shortDecimal : RegularExpression Char :=
  optional (char '-') * (wholeNumber * optional fractionPart)

lemma mem_oneOf {α : Type*} {as : List α} {a : α} (h : a ∈ as) : [a] ∈ (oneOf as).matches' := by
  induction as with
  | nil => cases h
  | cons b as ih =>
    rw [oneOf, matches'_add, Language.mem_add]
    rcases List.mem_cons.mp h with rfl | h
    · exact .inl rfl
    · exact .inr (ih h)

lemma mem_star_oneOf {α : Type*} {as s : List α} (h : ∀ a ∈ s, a ∈ as) :
    s ∈ (star (oneOf as)).matches' := by
  induction s with
  | nil => exact Language.nil_mem_kstar _
  | cons a s ih =>
    rw [matches'_star, ← Language.one_add_self_mul_kstar_eq_kstar, Language.mem_add]
    refine .inr (Language.append_mem_mul (a := [a]) ?_ ?_)
    · exact mem_oneOf (h a (by simp))
    · exact ih fun b hb => h b (by simp [hb])

lemma mem_optional {α : Type*} {P : RegularExpression α} {s : List α}
    (h : s = [] ∨ s ∈ P.matches') : s ∈ (optional P).matches' := by
  rw [optional, matches'_add, Language.mem_add, matches'_epsilon, Language.mem_one]
  exact h

lemma isDigit_mem_digits {c : Char} (h : c.isDigit = true) : c ∈ digits := by
  have hval : 48 ≤ c.toNat ∧ c.toNat ≤ 57 := by
    rw [Char.isDigit, Bool.and_eq_true, decide_eq_true_eq, decide_eq_true_eq] at h
    exact h
  rw [← Char.ofNat_toNat c]
  obtain ⟨hlow, hhigh⟩ := hval
  generalize c.toNat = n at *
  interval_cases n <;> decide

lemma isDigit_mem_nonzeroDigits {c : Char} (h : c.isDigit = true) (hc : c ≠ '0') :
    c ∈ nonzeroDigits :=
  (List.mem_cons.mp (isDigit_mem_digits h)).resolve_left hc

/-- Positive numbers do not begin with a zero. -/
lemma toDigits_of_pos {n : ℕ} (hn : 0 < n) :
    ∃ c cs, Nat.toDigits 10 n = c :: cs ∧ c ∈ nonzeroDigits ∧ ∀ a ∈ cs, a ∈ digits := by
  induction n using Nat.strong_induction_on with
  | _ n ih =>
    by_cases hsmall : n < 10
    · refine ⟨Nat.digitChar n, [], Nat.toDigits_of_lt_base hsmall, ?_, by simp⟩
      interval_cases n <;> decide
    · obtain ⟨c, cs, htext, hc, hcs⟩ := ih (n / 10) (by omega) (by omega)
      refine ⟨c, cs ++ [Nat.digitChar (n % 10)], ?_, hc, ?_⟩
      · rw [Nat.toDigits_of_base_le (by norm_num) (by omega), htext, List.cons_append]
      · intro a ha
        rcases List.mem_append.mp ha with ha | ha
        · exact hcs a ha
        · rw [List.mem_singleton.mp ha]
          exact isDigit_mem_digits (digitChar_isDigit (by omega))

lemma toDigits_mem_wholeNumber (n : ℕ) : Nat.toDigits 10 n ∈ wholeNumber.matches' := by
  rw [wholeNumber, matches'_add, Language.mem_add]
  rcases Nat.eq_zero_or_pos n with rfl | hn
  · exact .inl rfl
  · obtain ⟨c, cs, htext, hc, hcs⟩ := toDigits_of_pos hn
    rw [htext]
    exact .inr (Language.append_mem_mul (mem_oneOf hc) (mem_star_oneOf hcs))

/-- What is left of the decimals ends with a digit other than zero. -/
lemma rdropWhile_mem_fractionPart {fraction : List Char}
    (hdigits : ∀ c ∈ fraction, c.isDigit = true)
    (hne : fraction.rdropWhile (· = '0') ≠ []) :
    '.' :: fraction.rdropWhile (· = '0') ∈ fractionPart.matches' := by
  have hsub : ∀ c ∈ fraction.rdropWhile (· = '0'), c.isDigit = true := by
    exact fun c hc => hdigits c ((List.rdropWhile_prefix _ _).subset hc)
  have hlast := List.rdropWhile_last_not _ _ hne
  rcases List.eq_nil_or_concat' (fraction.rdropWhile (· = '0')) with hnil | ⟨kept, c, hkept⟩
  · exact absurd hnil hne
  · simp only [hkept, List.getLast_append_singleton, decide_eq_true_eq] at hlast
    rw [hkept] at hsub ⊢
    refine Language.append_mem_mul (a := ['.']) rfl (Language.append_mem_mul ?_ ?_)
    · exact mem_star_oneOf fun a ha => isDigit_mem_digits (hsub a (by simp [ha]))
    · exact mem_oneOf (isDigit_mem_nonzeroDigits (hsub c (by simp)) hlast)

lemma mem_shortDecimal {sign whole fraction : List Char}
    (hsign : sign ∈ (optional (char '-')).matches') (hwhole : whole ∈ wholeNumber.matches')
    (hfraction : fraction ∈ (optional fractionPart).matches') :
    sign ++ whole ++ fraction ∈ shortDecimal.matches' := by
  rw [List.append_assoc]
  exact Language.append_mem_mul hsign (Language.append_mem_mul hwhole hfraction)

theorem stripZeros_fixedPoint_mem (d : ℕ) (q : ℚ) :
    stripZeros (fixedPoint d q) ∈ shortDecimal.matches' := by
  have hdigits := fixedDecimal_isDigit d (magnitude d q)
  have hsign : (if q < 0 then ['-'] else []) ∈ (optional (char '-')).matches' := by
    apply mem_optional
    split_ifs
    · exact .inr rfl
    · exact .inl rfl
  have hwhole := toDigits_mem_wholeNumber (magnitude d q / 10^d)
  rw [fixedPoint, stripZeros_point hdigits]
  by_cases hnil : (fixedDecimal d (magnitude d q)).rdropWhile (· = '0') = []
  · have hnone : [] ∈ (optional fractionPart).matches' := mem_optional (.inl rfl)
    rw [if_pos hnil, ← List.append_nil (_ ++ Nat.toDigits 10 _)]
    exact mem_shortDecimal hsign hwhole hnone
  · rw [if_neg hnil]
    exact mem_shortDecimal hsign hwhole
      (mem_optional (.inr (rdropWhile_mem_fractionPart hdigits hnil)))

lemma magnitude_cast (d : ℕ) (q : ℚ) : (magnitude d q : ℚ) = roundEven (|q| * 10^d) := by
  have hnonneg : 0 ≤ roundEven (|q| * 10^d) := by
    have hfloor : 0 ≤ ⌊|q| * 10^d⌋ := Int.floor_nonneg.mpr (by positivity)
    unfold roundEven
    dsimp only
    split_ifs <;> omega
  rw [magnitude]
  exact_mod_cast Int.toNat_of_nonneg hnonneg

lemma hasDecimals_rounded (d : ℕ) (q : ℚ) : HasDecimals d (rounded d q) := by
  unfold rounded
  split_ifs
  · exact ⟨-magnitude d q, by push_cast; ring⟩
  · exact ⟨magnitude d q, by push_cast; ring⟩

/-- The text denotes a nearest number with so many decimals. -/
theorem isNearest_rounded (d : ℕ) (q : ℚ) : IsNearest {p | HasDecimals d p} q (rounded d q) := by
  have hpos := ten_pow_pos d
  have hscaled := abs_roundEven_sub (|q| * 10^d)
  have hunsigned : |(magnitude d q : ℚ) / 10^d - (|q|)| ≤ 1/2 / 10^d := by
    have hsplit : (magnitude d q : ℚ) / 10^d - (|q|) =
        (roundEven (|q| * 10^d) - |q| * 10^d) / 10^d := by
      rw [magnitude_cast]
      field_simp
    rw [hsplit, abs_div, abs_of_pos hpos]
    exact div_le_div_of_nonneg_right hscaled hpos.le
  apply (hasDecimals_rounded d q).isNearest
  unfold rounded
  split_ifs with hneg
  · rw [abs_of_neg hneg, abs_sub_comm] at hunsigned
    rw [show -((magnitude d q : ℚ) / 10^d) - q = -q - magnitude d q / 10^d by ring]
    exact hunsigned
  · rw [abs_of_nonneg (not_lt.mp hneg)] at hunsigned
    exact hunsigned

lemma rounded_eq_self_iff {d : ℕ} {q : ℚ} : rounded d q = q ↔ HasDecimals d q := by
  constructor
  · intro h
    rw [← h]
    exact hasDecimals_rounded d q
  · exact rounded_of_hasDecimals

lemma rounded_eq_zero_iff {d : ℕ} {q : ℚ} : rounded d q = 0 ↔ magnitude d q = 0 := by
  have hpos := ten_pow_pos d
  unfold rounded
  split_ifs <;> simp [hpos.ne']

/-- Rounding keeps the sign, unless nothing is left. -/
lemma rounded_neg_iff {d : ℕ} {q : ℚ} (h : rounded d q ≠ 0) : rounded d q < 0 ↔ q < 0 := by
  have hmagnitude : 0 < magnitude d q := Nat.pos_of_ne_zero (rounded_eq_zero_iff.not.mp h)
  have hunits : (0 : ℚ) < magnitude d q / 10^d := by positivity
  unfold rounded
  split_ifs with hneg
  · exact iff_of_true (by linarith) hneg
  · exact iff_of_false (by linarith) hneg

lemma abs_rounded (d : ℕ) (q : ℚ) : |rounded d q| = magnitude d q / 10^d := by
  have hunits : (0 : ℚ) ≤ magnitude d q / 10^d := by positivity
  unfold rounded
  split_ifs
  · rw [abs_neg, abs_of_nonneg hunits]
  · exact abs_of_nonneg hunits

lemma fixedPoint_congr {d : ℕ} {p q : ℚ} (h : rounded d p = rounded d q) (hne : rounded d p ≠ 0) :
    fixedPoint d p = fixedPoint d q := by
  have hmagnitude : magnitude d p = magnitude d q := by
    have habs := congrArg abs h
    rw [abs_rounded, abs_rounded, div_left_inj' (ten_pow_pos d).ne'] at habs
    exact_mod_cast habs
  have hsign : p < 0 ↔ q < 0 := by
    rw [← rounded_neg_iff hne, h, rounded_neg_iff (h ▸ hne)]
  rw [fixedPoint, fixedPoint, hmagnitude]
  simp only [hsign]

lemma fixedDecimal_zero (w : ℕ) : fixedDecimal w 0 = List.replicate w '0' := by
  induction w with
  | zero => rfl
  | succ w ih =>
    rw [fixedDecimal, Nat.zero_div, ih, List.replicate_succ']
    rfl

/-- Zero may keep a sign. -/
lemma stripZeros_fixedPoint_zero {d : ℕ} {q : ℚ} (h : rounded d q = 0) :
    stripZeros (fixedPoint d q) = ['0'] ∨ stripZeros (fixedPoint d q) = ['-', '0'] := by
  have hdigits := fixedDecimal_isDigit d 0
  have hnil : (fixedDecimal d 0).rdropWhile (· = '0') = [] := by
    rw [fixedDecimal_zero, List.rdropWhile_eq_nil_iff]
    intro c hc
    simpa using List.eq_of_mem_replicate hc
  rw [fixedPoint, rounded_eq_zero_iff.mp h, Nat.zero_div, stripZeros_point hdigits, if_pos hnil]
  split_ifs
  · exact .inr rfl
  · exact .inl rfl

end HyperliquidApi.DecimalText
