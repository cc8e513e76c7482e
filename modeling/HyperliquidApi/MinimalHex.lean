import HyperliquidApi.FixedHex
import HyperliquidApi.Signer

/-!
# Minimal hexadecimal words

The two halves of a signature are sent as numbers, without leading zeros. `toMinimalHex` skips
zero bytes and then a zero in the upper half of the first byte it writes.
-/
namespace HyperliquidApi.Signer
open ByteEncodings FixedHex

/-- The number that a word denotes. -/
def wordValue (word32 : Word) : ℕ := ofBigEndian word32.toList

/-- The word of a number below `2^256`. -/
def wordOf (n : ℕ) : Word := ⟨(bigEndian 32 n).toArray, by simp⟩

/-- `while (start < 31 && word32[start] == 0) ++start`: the last byte always stays. -/
def skipZeros : Bytes → Bytes
  | b :: b' :: bytes => if b = 0 then skipZeros (b' :: bytes) else b :: b' :: bytes
  | bytes => bytes

/-- The loop that writes, with its flag `first`. -/
def writeHex : Bool → Bytes → List Char
  | _, [] => []
  | true, b :: bytes =>
    (if b >>> 4 ≠ 0 then Nat.toDigits 16 (b >>> 4).toNat else []) ++
      Nat.toDigits 16 (b &&& 0xF).toNat ++ writeHex false bytes
  | false, b :: bytes => fixedHex 2 b.toNat ++ writeHex false bytes

def toMinimalHex (word32 : Word) : String :=
  String.ofList ('0' :: 'x' :: writeHex true (skipZeros word32.toList))

lemma skipZeros_value (bytes : Bytes) : ofBigEndian (skipZeros bytes) = ofBigEndian bytes := by
  fun_induction skipZeros bytes with
  | case1 b' bytes ih =>
    rw [ih]
    rfl
  | case2 => rfl
  | case3 => rfl

/-- What is left begins with a byte that is not zero, or is a single byte. -/
lemma skipZeros_cases {bytes : Bytes} (h : bytes ≠ []) :
    ∃ b rest, skipZeros bytes = b :: rest ∧ (b ≠ 0 ∨ rest = []) := by
  fun_induction skipZeros bytes with
  | case1 b' bytes ih => exact ih (by simp)
  | case2 b b' bytes hnonzero => exact ⟨b, b' :: bytes, rfl, .inl hnonzero⟩
  | case3 bytes hshort =>
    obtain ⟨b, rest, rfl⟩ := List.exists_cons_of_ne_nil h
    cases rest with
    | nil => exact ⟨b, [], rfl, .inr rfl⟩
    | cons b' rest => exact absurd rfl (hshort b b' rest)

lemma writeHex_false (bytes : Bytes) : writeHex false bytes = hexText bytes := by
  induction bytes with
  | nil => rfl
  | cons b bytes ih => rw [writeHex, ih, hexText_cons]

/-- Only the first byte is written in another way. -/
lemma writeHex_cons (first : Bool) (b : UInt8) (bytes : Bytes) :
    writeHex first (b :: bytes) = writeHex first [b] ++ hexText bytes := by
  rw [← writeHex_false]
  cases first with
  | true => simp [writeHex]
  | false => simp [writeHex]

lemma writeHex_append (first : Bool) (b c : UInt8) (bytes : Bytes) :
    writeHex first (b :: (bytes ++ [c])) = writeHex first (b :: bytes) ++ fixedHex 2 c.toNat := by
  rw [writeHex_cons, hexText_concat, ← List.append_assoc, ← writeHex_cons]

lemma toNat_shiftRight_four (b : UInt8) : (b >>> 4).toNat = b.toNat/16 := by
  rw [UInt8.toNat_shiftRight]
  exact Nat.shiftRight_eq_div_pow b.toNat 4

lemma toNat_and_fifteen (b : UInt8) : (b &&& 0xF).toNat = b.toNat%16 := by
  rw [UInt8.toNat_and]
  exact Nat.and_two_pow_sub_one_eq_mod b.toNat 4

/-- The first byte alone is written as the number that it is. -/
lemma writeHex_single (b : UInt8) : writeHex true [b] = Nat.toDigits 16 b.toNat := by
  have hlow : b.toNat%16 < 16 := Nat.mod_lt _ (by omega)
  simp only [writeHex, List.append_nil, toNat_shiftRight_four, toNat_and_fifteen, ne_eq,
    ← UInt8.toNat_inj, UInt8.toNat_zero]
  split_ifs with hhigh
  · rw [List.nil_append, Nat.mod_eq_of_lt (by omega)]
  · rw [Nat.toDigits_of_lt_base hlow, ← toDigits_concat (by omega) hlow, Nat.div_add_mod]

/-- The digits are those of the number. -/
lemma writeHex_toDigits {b : UInt8} {bytes : Bytes} (h : b ≠ 0 ∨ bytes = []) :
    writeHex true (b :: bytes) = Nat.toDigits 16 (ofBigEndian (b :: bytes)) := by
  induction bytes using List.reverseRecOn with
  | nil => simpa [ofBigEndian] using writeHex_single b
  | append_singleton bytes c ih =>
    have hb : b ≠ 0 := h.resolve_right (by simp)
    rw [writeHex_append, ih (.inl hb), ← List.cons_append, ofBigEndian_concat,
      toDigits_byte (ofBigEndian_pos hb bytes) c.toNat_lt]

theorem toMinimalHex_eq (word32 : Word) :
    toMinimalHex word32 = String.ofList ('0' :: 'x' :: Nat.toDigits 16 (wordValue word32)) := by
  have hne : word32.toList ≠ [] := by
    have hlen : word32.toList.length = 32 := by simp
    intro h
    simp [h] at hlen
  obtain ⟨b, rest, hskip, hcase⟩ := skipZeros_cases hne
  rw [toMinimalHex, hskip, writeHex_toDigits hcase, ← hskip, skipZeros_value, wordValue]

lemma wordValue_inj {word32 word32' : Word} (h : wordValue word32 = wordValue word32') :
    word32 = word32' :=
  Vector.toList_inj.mp (ofBigEndian_inj (by simp) h)

lemma wordValue_wordOf {n : ℕ} (hn : n < 2^256) : wordValue (wordOf n) = n :=
  ofBigEndian_bigEndian (w := 32) (by omega)

lemma toMinimalHex_eq_iff {word32 word32' : Word} :
    toMinimalHex word32 = toMinimalHex word32' ↔ wordValue word32 = wordValue word32' := by
  rw [toMinimalHex_eq, toMinimalHex_eq, String.ofList_inj, List.cons_inj_right, List.cons_inj_right]
  refine ⟨fun h => ?_, fun h => by rw [h]⟩
  rw [← hexValue_toDigits (wordValue word32), h, hexValue_toDigits]

example : toMinimalHex (wordOf 0x539) = "0x539" := by decide

/-- `toMinimalHex` writes "0x" and lowercase digits of the word's value, without a leading zero
but for zero itself, and so differently for every 256-bit number. -/
theorem toMinimalHex_minimal :
    (∀ word32 : Word, ∃ digits : List Char, toMinimalHex word32 = String.ofList ('0' :: 'x' :: digits) ∧
      digits ≠ [] ∧ (∀ c ∈ digits, IsLowerHex c) ∧ hexValue digits = wordValue word32 ∧
      (digits.head? = some '0' → wordValue word32 = 0) ∧
      (wordValue word32 = 0 → toMinimalHex word32 = "0x0")) ∧
    Function.Injective toMinimalHex ∧
    Set.InjOn (fun n => toMinimalHex (wordOf n)) {n | n < 2^256} := by
  refine ⟨fun word32 => ?_, ?_, ?_⟩
  · refine ⟨Nat.toDigits 16 (wordValue word32), toMinimalHex_eq word32, Nat.toDigits_ne_nil,
      toDigits_lowerHex _, hexValue_toDigits _, toDigits_head _, fun hzero => ?_⟩
    rw [toMinimalHex_eq, hzero]
    rfl
  · exact fun word32 word32' h => wordValue_inj (toMinimalHex_eq_iff.mp h)
  · intro n hn m hm h
    have hvalue := toMinimalHex_eq_iff.mp h
    rwa [wordValue_wordOf hn, wordValue_wordOf hm] at hvalue

end HyperliquidApi.Signer
