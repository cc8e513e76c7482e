import Mathlib

/-!
# Byte encodings

Big-endian numbers of a fixed width, and encodings that show by themselves where they end, so
that what is written after them cannot be mistaken for a part of them.
-/
namespace HyperliquidApi.ByteEncodings

/-- The lowest `w` bytes of a number, most significant first. -/
def bigEndian : ℕ → ℕ → List UInt8
  | 0, _ => []
  | w+1, n => bigEndian w (n/256) ++ [UInt8.ofNat (n%256)]

/-- The number that bytes denote, most significant first. -/
def ofBigEndian (bytes : List UInt8) : ℕ := bytes.foldl (fun v b => 256*v + b.toNat) 0

@[simp] lemma bigEndian_length (w n : ℕ) : (bigEndian w n).length = w := by
  induction w generalizing n with
  | zero => rfl
  | succ w ih => simp [bigEndian, ih]

lemma byte_inj {n m : ℕ} (hn : n < 256) (hm : m < 256) (h : UInt8.ofNat n = UInt8.ofNat m) :
    n = m := by
  have h' := congrArg UInt8.toNat h
  rw [UInt8.toNat_ofNat', UInt8.toNat_ofNat'] at h'
  omega

lemma bigEndian_inj {w n m : ℕ} (hn : n < 256^w) (hm : m < 256^w)
    (h : bigEndian w n = bigEndian w m) : n = m := by
  induction w generalizing n m with
  | zero => simp at hn hm; omega
  | succ w ih =>
    simp only [bigEndian, List.append_singleton_inj] at h
    rw [pow_succ] at hn hm
    have hq := ih (Nat.div_lt_of_lt_mul (by omega)) (Nat.div_lt_of_lt_mul (by omega)) h.1
    have hr := byte_inj (Nat.mod_lt n (by omega)) (Nat.mod_lt m (by omega)) h.2
    omega

lemma ofBigEndian_concat (bytes : List UInt8) (b : UInt8) :
    ofBigEndian (bytes ++ [b]) = 256 * ofBigEndian bytes + b.toNat := by
  simp [ofBigEndian, List.foldl_append]

lemma bigEndian_ofBigEndian (bytes : List UInt8) :
    bigEndian bytes.length (ofBigEndian bytes) = bytes := by
  induction bytes using List.reverseRecOn with
  | nil => rfl
  | append_singleton bytes b ih =>
    have hb := b.toNat_lt
    rw [ofBigEndian_concat, List.length_append, List.length_singleton, bigEndian]
    rw [show (256 * ofBigEndian bytes + b.toNat) / 256 = ofBigEndian bytes by omega,
      show (256 * ofBigEndian bytes + b.toNat) % 256 = b.toNat by omega, ih, UInt8.ofNat_toNat]

lemma ofBigEndian_bigEndian {w n : ℕ} (hn : n < 256^w) : ofBigEndian (bigEndian w n) = n := by
  induction w generalizing n with
  | zero =>
    simp only [pow_zero, Nat.lt_one_iff] at hn
    rw [hn]
    rfl
  | succ w ih =>
    rw [pow_succ] at hn
    have hlast : (UInt8.ofNat (n%256)).toNat = n%256 := by
      rw [UInt8.toNat_ofNat']
      omega
    rw [bigEndian, ofBigEndian_concat, ih (Nat.div_lt_of_lt_mul (by omega)), hlast, Nat.div_add_mod]

lemma ofBigEndian_pos {b : UInt8} (hb : b ≠ 0) (bytes : List UInt8) : 0 < ofBigEndian (b :: bytes) := by
  induction bytes using List.reverseRecOn with
  | nil =>
    have hpos : b.toNat ≠ 0 := fun h => hb (UInt8.toNat_inj.mp h)
    simpa [ofBigEndian] using Nat.pos_of_ne_zero hpos
  | append_singleton bytes c ih =>
    rw [← List.cons_append, ofBigEndian_concat]
    omega

lemma ofBigEndian_inj {bytes bytes' : List UInt8} (hlen : bytes.length = bytes'.length)
    (h : ofBigEndian bytes = ofBigEndian bytes') : bytes = bytes' := by
  rw [← bigEndian_ofBigEndian bytes, ← bigEndian_ofBigEndian bytes', hlen, h]

variable {α β : Type*} {valid : α → Prop} {encode : α → List β}

/-- Values and what follows them are read off the concatenation in one way only. -/
def SelfDelimiting (valid : α → Prop) (encode : α → List β) : Prop :=
  ∀ ⦃a b : α⦄, valid a → valid b → ∀ ⦃r r' : List β⦄, encode a ++ r = encode b ++ r' →
    a = b ∧ r = r'

lemma SelfDelimiting.inj (h : SelfDelimiting valid encode) {a b : α} (ha : valid a)
    (hb : valid b) (he : encode a = encode b) : a = b := by
  have hsame : encode a ++ [] = encode b ++ [] := by rw [he]
  exact (h ha hb hsame).1

/-- An injective encoding of a fixed length. -/
lemma selfDelimiting_of_length {w : ℕ} (hlen : ∀ a, valid a → (encode a).length = w)
    (hinj : ∀ a b, valid a → valid b → encode a = encode b → a = b) :
    SelfDelimiting valid encode := by
  intro a b ha hb r r' he
  obtain ⟨h, hr⟩ := List.append_inj he ((hlen a ha).trans (hlen b hb).symm)
  exact ⟨hinj a b ha hb h, hr⟩

lemma bigEndian_selfDelimiting (w : ℕ) : SelfDelimiting (· < 256^w) (bigEndian w) := by
  apply selfDelimiting_of_length (w := w)
  · intro n _
    exact bigEndian_length w n
  · intro n m hn hm h
    exact bigEndian_inj hn hm h

end HyperliquidApi.ByteEncodings
