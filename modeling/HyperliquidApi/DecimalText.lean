import HyperliquidApi.Rounding

/-!
# Decimal text

Rationals written with a fixed number of decimals, the text without its trailing zeros, and what
such texts denote.
-/
namespace HyperliquidApi.DecimalText
open Rounding

/-- The lowest `w` decimal digits of a number. -/
def fixedDecimal : ℕ → ℕ → List Char
  | 0, _ => []
  | w+1, n => fixedDecimal w (n/10) ++ [Nat.digitChar (n%10)]

/-- The absolute value in units of the last of `d` decimals. -/
def magnitude (d : ℕ) (q : ℚ) : ℕ := (roundEven (|q| * 10^d)).toNat

/-- `{:.df}` for a positive `d`; what rounds to zero keeps its sign. -/
def fixedPoint (d : ℕ) (q : ℚ) : List Char :=
  (if q < 0 then ['-'] else []) ++ Nat.toDigits 10 (magnitude d q / 10^d) ++
    '.' :: fixedDecimal d (magnitude d q)

/-- Without the zeros at the end, and without a point that ends up there. -/
def stripZeros (s : List Char) : List Char :=
  let kept := s.rdropWhile (· = '0')
  if kept.getLast? = some '.' then kept.dropLast else kept

def digitsValue (cs : List Char) : ℕ := cs.foldl (fun v c => 10 * v + (c.toNat - 48)) 0

/-- Digits, or digits on both sides of a point. -/
def unsignedValue (s : List Char) : Option ℚ :=
  let whole := s.takeWhile (· ≠ '.')
  match s.dropWhile (· ≠ '.') with
  | [] => if whole ≠ [] ∧ whole.all Char.isDigit then some (digitsValue whole) else none
  | _ :: fraction =>
    if whole ≠ [] ∧ fraction ≠ [] ∧ (whole ++ fraction).all Char.isDigit then
      some (digitsValue (whole ++ fraction) / 10 ^ fraction.length)
    else none

/-- What a decimal text denotes. -/
def decimalValue : List Char → Option ℚ
  | '-' :: s => (unsignedValue s).map Neg.neg
  | s => unsignedValue s

lemma digitsValue_concat (cs : List Char) (c : Char) :
    digitsValue (cs ++ [c]) = 10 * digitsValue cs + (c.toNat - 48) := by
  simp [digitsValue, List.foldl_append]

lemma digitsValue_append (as bs : List Char) :
    digitsValue (as ++ bs) = digitsValue as * 10^bs.length + digitsValue bs := by
  induction bs using List.reverseRecOn with
  | nil => simp [digitsValue]
  | append_singleton bs c ih =>
    rw [← List.append_assoc, digitsValue_concat, ih, digitsValue_concat, List.length_append,
      List.length_singleton, pow_succ]
    ring

lemma digitChar_value {d : ℕ} (h : d < 10) : (Nat.digitChar d).toNat - 48 = d := by
  interval_cases d <;> decide

lemma digitChar_isDigit {d : ℕ} (h : d < 10) : (Nat.digitChar d).isDigit = true := by
  interval_cases d <;> decide

lemma digitsValue_toDigits (n : ℕ) : digitsValue (Nat.toDigits 10 n) = n := by
  induction n using Nat.strong_induction_on with
  | _ n ih =>
    by_cases h : n < 10
    · rw [Nat.toDigits_of_lt_base h]
      simp [digitsValue, digitChar_value h]
    · rw [Nat.toDigits_of_base_le (by norm_num) (by omega), digitsValue_concat,
        ih (n/10) (by omega), digitChar_value (by omega)]
      omega

lemma toDigits_isDigit (n : ℕ) : ∀ c ∈ Nat.toDigits 10 n, c.isDigit = true :=
  fun _ hc => Nat.isDigit_of_mem_toDigits (by norm_num) le_rfl hc

lemma toDigits_ne_nil (n : ℕ) : Nat.toDigits 10 n ≠ [] := by
  rw [Nat.toDigits_eq_if (by norm_num)]
  split <;> simp

lemma fixedDecimal_length (w n : ℕ) : (fixedDecimal w n).length = w := by
  induction w generalizing n with
  | zero => rfl
  | succ w ih => simp [fixedDecimal, ih]

lemma fixedDecimal_isDigit (w n : ℕ) : ∀ c ∈ fixedDecimal w n, c.isDigit = true := by
  induction w generalizing n with
  | zero => simp [fixedDecimal]
  | succ w ih =>
    intro c hc
    rcases List.mem_append.mp hc with h | h
    · exact ih (n/10) c h
    · rw [List.mem_singleton.mp h]
      exact digitChar_isDigit (by omega)

lemma digitsValue_fixedDecimal (w n : ℕ) : digitsValue (fixedDecimal w n) = n % 10^w := by
  induction w generalizing n with
  | zero => simp [fixedDecimal, digitsValue, Nat.mod_one]
  | succ w ih =>
    rw [fixedDecimal, digitsValue_concat, ih, digitChar_value (by omega), pow_succ, mul_comm (10^w),
      Nat.mod_mul]
    omega

/-- The value of digits on both sides of a point. -/
def pointValue (whole fraction : List Char) : ℚ := digitsValue (whole ++ fraction) / 10^fraction.length

lemma pointValue_zero (whole fraction : List Char) :
    pointValue whole (fraction ++ ['0']) = pointValue whole fraction := by
  have hzero : digitsValue (whole ++ (fraction ++ ['0'])) = 10 * digitsValue (whole ++ fraction) := by
    rw [← List.append_assoc, digitsValue_concat]
    rfl
  have hpos := ten_pow_pos fraction.length
  rw [pointValue, pointValue, hzero, List.length_append, List.length_singleton, pow_succ]
  push_cast
  field_simp

lemma pointValue_rdropWhile (whole fraction : List Char) :
    pointValue whole (fraction.rdropWhile (· = '0')) = pointValue whole fraction := by
  induction fraction using List.reverseRecOn with
  | nil => simp
  | append_singleton fraction c ih =>
    by_cases hc : c = '0'
    · subst hc
      rw [List.rdropWhile_concat_pos _ _ _ (by simp), ih, pointValue_zero]
    · rw [List.rdropWhile_concat_neg _ _ _ (by simp [hc])]

lemma rdropWhile_point (whole fraction : List Char) :
    (whole ++ '.' :: fraction).rdropWhile (· = '0') =
      whole ++ '.' :: fraction.rdropWhile (· = '0') := by
  induction fraction using List.reverseRecOn with
  | nil => exact List.rdropWhile_concat_neg _ _ _ (by simp)
  | append_singleton fraction c ih =>
    have hassoc : whole ++ '.' :: (fraction ++ [c]) = (whole ++ '.' :: fraction) ++ [c] := by simp
    by_cases hc : c = '0'
    · subst hc
      rw [hassoc, List.rdropWhile_concat_pos _ _ _ (by simp), ih,
        List.rdropWhile_concat_pos _ _ _ (by simp)]
    · rw [hassoc, List.rdropWhile_concat_neg _ _ _ (by simp [hc]),
        List.rdropWhile_concat_neg _ _ _ (by simp [hc]), hassoc]

/-- The point goes when nothing is left behind it. -/
lemma stripZeros_point {whole fraction : List Char} (hdigits : ∀ c ∈ fraction, c.isDigit = true) :
    stripZeros (whole ++ '.' :: fraction) =
      if fraction.rdropWhile (· = '0') = [] then whole
      else whole ++ '.' :: fraction.rdropWhile (· = '0') := by
  have hsub : ∀ c ∈ fraction.rdropWhile (· = '0'), c.isDigit = true := by
    exact fun c hc => hdigits c ((List.rdropWhile_prefix _ _).subset hc)
  unfold stripZeros
  rw [rdropWhile_point]
  rcases List.eq_nil_or_concat' (fraction.rdropWhile (· = '0')) with hnil | ⟨kept, c, hkept⟩
  · simp [hnil]
  · have hdot : c ≠ '.' := by
      rintro rfl
      exact absurd (hsub '.' (by simp [hkept])) (by decide)
    have hlast : (whole ++ '.' :: (kept ++ [c])).getLast? = some c := by
      rw [show whole ++ '.' :: (kept ++ [c]) = (whole ++ '.' :: kept) ++ [c] by simp]
      exact List.getLast?_concat
    rw [hkept]
    simp only [hlast, Option.some.injEq, hdot, if_false]
    simp

lemma takeWhile_digits {whole : List Char} (hdigits : ∀ c ∈ whole, c.isDigit = true)
    (rest : List Char) :
    (whole ++ '.' :: rest).takeWhile (· ≠ '.') = whole ∧
      (whole ++ '.' :: rest).dropWhile (· ≠ '.') = '.' :: rest := by
  have hdots : ∀ c ∈ whole, decide (c ≠ '.') = true := by
    intro c hc
    rw [decide_eq_true_eq]
    rintro rfl
    exact absurd (hdigits _ hc) (by decide)
  rw [List.takeWhile_append_of_pos hdots, List.dropWhile_append_of_pos hdots]
  simp

lemma unsignedValue_point {whole fraction : List Char} (hw : whole ≠ []) (hf : fraction ≠ [])
    (hwhole : ∀ c ∈ whole, c.isDigit = true) (hfraction : ∀ c ∈ fraction, c.isDigit = true) :
    unsignedValue (whole ++ '.' :: fraction) = some (pointValue whole fraction) := by
  obtain ⟨htake, hdrop⟩ := takeWhile_digits hwhole fraction
  have hall : (whole ++ fraction).all Char.isDigit = true := by
    rw [List.all_eq_true]
    intro c hc
    exact (List.mem_append.mp hc).elim (hwhole c) (hfraction c)
  simp only [unsignedValue, htake, hdrop]
  rw [if_pos ⟨hw, hf, hall⟩]
  rfl

lemma unsignedValue_whole {whole : List Char} (hw : whole ≠ [])
    (hwhole : ∀ c ∈ whole, c.isDigit = true) :
    unsignedValue whole = some (pointValue whole []) := by
  have hdots : ∀ c ∈ whole, decide (c ≠ '.') = true := by
    intro c hc
    rw [decide_eq_true_eq]
    rintro rfl
    exact absurd (hwhole _ hc) (by decide)
  have htake : whole.takeWhile (· ≠ '.') = whole := List.takeWhile_eq_self_iff.mpr hdots
  have hdrop : whole.dropWhile (· ≠ '.') = [] := List.dropWhile_eq_nil_iff.mpr hdots
  have hall : whole.all Char.isDigit = true := List.all_eq_true.mpr hwhole
  simp only [unsignedValue, htake, hdrop]
  rw [if_pos ⟨hw, hall⟩]
  simp [pointValue]

/-- Stripping zeros leaves what the text denotes. -/
lemma unsignedValue_stripZeros {whole fraction : List Char} (hw : whole ≠ [])
    (hwhole : ∀ c ∈ whole, c.isDigit = true) (hfraction : ∀ c ∈ fraction, c.isDigit = true) :
    unsignedValue (stripZeros (whole ++ '.' :: fraction)) = some (pointValue whole fraction) := by
  rw [stripZeros_point hfraction, ← pointValue_rdropWhile whole fraction]
  split_ifs with hnil
  · rw [hnil]
    exact unsignedValue_whole hw hwhole
  · exact unsignedValue_point hw hnil hwhole fun c hc =>
      hfraction c ((List.rdropWhile_prefix _ _).subset hc)

/-- The number that the text stands for. -/
def rounded (d : ℕ) (q : ℚ) : ℚ :=
  if q < 0 then -(magnitude d q / 10^d) else magnitude d q / 10^d

lemma pointValue_magnitude (d n : ℕ) :
    pointValue (Nat.toDigits 10 (n / 10^d)) (fixedDecimal d n) = n / 10^d := by
  have hn : n / 10^d * 10^d + n % 10^d = n := by
    rw [mul_comm]
    exact Nat.div_add_mod n (10^d)
  rw [pointValue, digitsValue_append, digitsValue_toDigits, digitsValue_fixedDecimal,
    fixedDecimal_length, hn]

lemma stripZeros_sign {whole fraction : List Char} (hfraction : ∀ c ∈ fraction, c.isDigit = true) :
    stripZeros ('-' :: (whole ++ '.' :: fraction)) = '-' :: stripZeros (whole ++ '.' :: fraction) := by
  have hsigned := @stripZeros_point ('-' :: whole) fraction hfraction
  rw [List.cons_append] at hsigned
  rw [hsigned, stripZeros_point hfraction]
  split_ifs <;> rfl

lemma decimalValue_of_unsigned {s : List Char} {v : ℚ} (h : unsignedValue s = some v) :
    decimalValue s = some v := by
  unfold decimalValue
  split
  · rename_i rest
    have hnone : unsignedValue ('-' :: rest) = none := by
      unfold unsignedValue
      split <;> simp
    rw [hnone] at h
    cases h
  · exact h

/-- The stripped text denotes the rounded number. -/
theorem decimalValue_stripZeros (d : ℕ) (q : ℚ) :
    decimalValue (stripZeros (fixedPoint d q)) = some (rounded d q) := by
  have hread := unsignedValue_stripZeros (toDigits_ne_nil (magnitude d q / 10^d))
    (toDigits_isDigit _) (fixedDecimal_isDigit d (magnitude d q))
  rw [pointValue_magnitude] at hread
  unfold fixedPoint rounded
  split_ifs
  · rw [List.append_assoc, List.singleton_append, stripZeros_sign (fixedDecimal_isDigit d _)]
    simp only [decimalValue, hread, Option.map_some]
  · rw [List.nil_append]
    exact decimalValue_of_unsigned hread

/-- A number with `d` decimals is written exactly. -/
lemma rounded_of_hasDecimals {d : ℕ} {q : ℚ} (h : HasDecimals d q) : rounded d q = q := by
  have hpos := ten_pow_pos d
  have hmagnitude : (magnitude d q : ℚ) / 10^d = |q| := by
    obtain ⟨z, rfl⟩ := h
    have hz : |(z / 10^d : ℚ)| * 10^d = ((z.natAbs : ℤ) : ℚ) := by
      rw [abs_div, abs_of_pos hpos, div_mul_cancel₀ _ hpos.ne']
      simp
    rw [magnitude, hz, roundEven_intCast, Int.toNat_natCast, abs_div, abs_of_pos hpos]
    simp
  rw [rounded, hmagnitude]
  split_ifs with hneg
  · rw [abs_of_neg hneg, neg_neg]
  · exact abs_of_nonneg (not_lt.mp hneg)

end HyperliquidApi.DecimalText
