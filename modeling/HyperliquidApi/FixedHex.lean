import Mathlib

/-!
# Hexadecimal text

The lowest `w` hexadecimal digits of a number, most significant first. Numbers below
`16^w` are told apart by them. Texts of any length have the value of their digits.
-/
namespace HyperliquidApi.FixedHex

def fixedHex : ℕ → ℕ → List Char
  | 0, _ => []
  | w+1, n => fixedHex w (n/16) ++ [Nat.digitChar (n%16)]

/-- Two digits for each byte. -/
def hexText (bytes : List UInt8) : List Char := bytes.flatMap fun b => fixedHex 2 b.toNat

def hexDigitValue (c : Char) : ℕ := if c.isDigit then c.toNat - '0'.toNat else c.toNat - 'a'.toNat + 10

/-- The number that lowercase digits denote. -/
def hexValue (cs : List Char) : ℕ := cs.foldl (fun v c => 16*v + hexDigitValue c) 0

def IsLowerHex (c : Char) : Prop := c ∈ "0123456789abcdef".toList

lemma fixedHex_length (w n : ℕ) : (fixedHex w n).length = w := by
  induction w generalizing n with
  | zero => rfl
  | succ w ih => simp [fixedHex, ih]

lemma digitChar_lowerHex {d : ℕ} (h : d < 16) : IsLowerHex (Nat.digitChar d) := by
  unfold IsLowerHex
  interval_cases d <;> decide

lemma fixedHex_lowerHex (w n : ℕ) : ∀ c ∈ fixedHex w n, IsLowerHex c := by
  induction w generalizing n with
  | zero => simp [fixedHex]
  | succ w ih =>
    intro c hc
    rcases List.mem_append.mp hc with h | h
    · exact ih (n/16) c h
    · rw [List.mem_singleton.mp h]
      exact digitChar_lowerHex (Nat.mod_lt n (by omega))

lemma digitChar_inj {d e : ℕ} (hd : d < 16) (he : e < 16)
    (h : Nat.digitChar d = Nat.digitChar e) : d = e := by
  interval_cases d <;> interval_cases e <;> first | rfl | exact absurd h (by decide)

theorem fixedHex_inj {w n m : ℕ} (hn : n < 16^w) (hm : m < 16^w)
    (h : fixedHex w n = fixedHex w m) : n = m := by
  induction w generalizing n m with
  | zero => simp at hn hm; omega
  | succ w ih =>
    simp only [fixedHex, List.append_singleton_inj] at h
    rw [pow_succ] at hn hm
    have hq := ih (Nat.div_lt_of_lt_mul (by omega)) (Nat.div_lt_of_lt_mul (by omega)) h.1
    have hr := digitChar_inj (Nat.mod_lt n (by omega)) (Nat.mod_lt m (by omega)) h.2
    omega

lemma hexDigitValue_digitChar {d : ℕ} (h : d < 16) : hexDigitValue (Nat.digitChar d) = d := by
  interval_cases d <;> decide

lemma hexValue_concat (cs : List Char) (c : Char) :
    hexValue (cs ++ [c]) = 16 * hexValue cs + hexDigitValue c := by
  simp [hexValue, List.foldl_append]

lemma toDigits_concat {n d : ℕ} (hn : 0 < n) (hd : d < 16) :
    Nat.toDigits 16 (16*n + d) = Nat.toDigits 16 n ++ [Nat.digitChar d] := by
  rw [← Nat.toDigits_append_toDigits (by omega) hn hd, Nat.toDigits_of_lt_base hd]

/-- The lower digits are split off one after the other. -/
lemma toDigits_induction {P : ℕ → List Char → Prop}
    (single : ∀ d < 16, P d [Nat.digitChar d])
    (snoc : ∀ n d, 0 < n → d < 16 → P n (Nat.toDigits 16 n) →
      P (16*n + d) (Nat.toDigits 16 n ++ [Nat.digitChar d])) (n : ℕ) : P n (Nat.toDigits 16 n) := by
  induction n using Nat.strong_induction_on with
  | _ n ih =>
    by_cases hsmall : n < 16
    · rw [Nat.toDigits_of_lt_base hsmall]
      exact single n hsmall
    · have hpos : 0 < n/16 := by omega
      have hlast : n%16 < 16 := Nat.mod_lt n (by omega)
      have hsplit := snoc (n/16) (n%16) hpos hlast (ih (n/16) (by omega))
      rw [← toDigits_concat hpos hlast, Nat.div_add_mod] at hsplit
      exact hsplit

lemma hexValue_toDigits (n : ℕ) : hexValue (Nat.toDigits 16 n) = n := by
  refine toDigits_induction (P := fun n cs => hexValue cs = n) ?_ ?_ n
  · intro d hd
    simp [hexValue, hexDigitValue_digitChar hd]
  · intro n d _ hd ih
    rw [hexValue_concat, ih, hexDigitValue_digitChar hd]

lemma toDigits_lowerHex (n : ℕ) : ∀ c ∈ Nat.toDigits 16 n, IsLowerHex c := by
  refine toDigits_induction (P := fun _ cs => ∀ c ∈ cs, IsLowerHex c) ?_ ?_ n
  · intro d hd c hc
    rw [List.mem_singleton.mp hc]
    exact digitChar_lowerHex hd
  · intro n d _ hd ih c hc
    rcases List.mem_append.mp hc with hc | hc
    · exact ih c hc
    · rw [List.mem_singleton.mp hc]
      exact digitChar_lowerHex hd

/-- Only zero begins with the digit zero. -/
lemma toDigits_head (n : ℕ) (h : (Nat.toDigits 16 n).head? = some '0') : n = 0 := by
  revert h
  refine toDigits_induction (P := fun n cs => cs.head? = some '0' → n = 0) ?_ ?_ n
  · intro d hd h
    exact digitChar_inj hd (by omega) (Option.some.inj h)
  · intro n d hn _ ih h
    rw [List.head?_append_of_ne_nil _ Nat.toDigits_ne_nil] at h
    exact absurd (ih h) hn.ne'

lemma fixedHex_two {high low : ℕ} (hhigh : high < 16) (hlow : low < 16) :
    fixedHex 2 (16*high + low) = [Nat.digitChar high, Nat.digitChar low] := by
  simp only [fixedHex, List.nil_append, List.singleton_append]
  rw [show (16*high + low)/16%16 = high by omega, show (16*high + low)%16 = low by omega]

/-- Two digits more for a byte more. -/
lemma toDigits_byte {n b : ℕ} (hn : 0 < n) (hb : b < 2^8) :
    Nat.toDigits 16 (256*n + b) = Nat.toDigits 16 n ++ fixedHex 2 b := by
  have hhigh : b/16 < 16 := by omega
  have hlow : b%16 < 16 := Nat.mod_lt b (by omega)
  have hdigits := fixedHex_two hhigh hlow
  rw [Nat.div_add_mod] at hdigits
  rw [show 256*n + b = 16*(16*n + b/16) + b%16 by omega, toDigits_concat (by omega) hlow,
    toDigits_concat hn hhigh, hdigits, List.append_assoc, List.singleton_append]

lemma hexText_cons (b : UInt8) (bytes : List UInt8) :
    hexText (b :: bytes) = fixedHex 2 b.toNat ++ hexText bytes := rfl

lemma hexText_concat (bytes : List UInt8) (b : UInt8) :
    hexText (bytes ++ [b]) = hexText bytes ++ fixedHex 2 b.toNat := by
  simp [hexText]

lemma hexText_lowerHex (bytes : List UInt8) : ∀ c ∈ hexText bytes, IsLowerHex c := by
  intro c hc
  obtain ⟨b, _, hb⟩ := List.mem_flatMap.mp hc
  exact fixedHex_lowerHex 2 b.toNat c hb

@[simp] lemma hexText_length (bytes : List UInt8) : (hexText bytes).length = 2 * bytes.length := by
  induction bytes with
  | nil => rfl
  | cons b bytes ih =>
    rw [hexText_cons, List.length_append, fixedHex_length, ih, List.length_cons]
    omega

theorem hexText_inj {bytes bytes' : List UInt8} (h : hexText bytes = hexText bytes') :
    bytes = bytes' := by
  induction bytes generalizing bytes' with
  | nil =>
    have hlen := congrArg List.length h
    simp only [hexText_length, List.length_nil] at hlen
    exact (List.length_eq_zero_iff.mp (by omega)).symm
  | cons b bytes ih =>
    cases bytes' with
    | nil =>
      have hlen := congrArg List.length h
      simp at hlen
    | cons b' bytes' =>
      have hb := b.toNat_lt
      have hb' := b'.toNat_lt
      rw [hexText_cons, hexText_cons] at h
      obtain ⟨hfirst, hrest⟩ := List.append_inj h (by rw [fixedHex_length, fixedHex_length])
      rw [UInt8.toNat_inj.mp (fixedHex_inj (by omega) (by omega) hfirst), ih hrest]

end HyperliquidApi.FixedHex
