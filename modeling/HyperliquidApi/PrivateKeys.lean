import HyperliquidApi.FixedHex
import HyperliquidApi.Json
import HyperliquidApi.Signer

/-!
# Private keys

A signer is made from the hexadecimal text of its key. `fromHex` strips one prefix, refuses texts
of odd length and decodes two characters at a time. A `std::string` is its bytes here.
-/
namespace HyperliquidApi.Signer
open ByteEncodings FixedHex

/-- The value of a hexadecimal character. A byte above 0x7F, a negative `char`, is in no range. -/
def nibble (c : UInt8) : Except String ℕ :=
  if '0'.toUInt8 ≤ c ∧ c ≤ '9'.toUInt8 then .ok (c.toNat - '0'.toNat)
  else if 'a'.toUInt8 ≤ c ∧ c ≤ 'f'.toUInt8 then .ok (c.toNat - 'a'.toNat + 10)
  else if 'A'.toUInt8 ≤ c ∧ c ≤ 'F'.toUInt8 then .ok (c.toNat - 'A'.toNat + 10)
  else .error "invalid hex character"

/-- The loop of `fromHex`; it runs `hex.size() / 2` times. -/
def decodePairs : Bytes → Except String Bytes
  | [] => .ok []
  | [_] => .ok []
  | c :: c' :: hex => do
    let high ← nibble c
    let low ← nibble c'
    let out ← decodePairs hex
    return UInt8.ofNat (high <<< 4 ||| low) :: out

/-- `if (hex.starts_with("0x") || hex.starts_with("0X")) hex = hex.substr(2)` -/
def stripPrefix (hex : Bytes) : Bytes :=
  if (ascii "0x").isPrefixOf hex || (ascii "0X").isPrefixOf hex then hex.drop 2 else hex

def fromHex (hex : Bytes) : Except String Bytes :=
  if (stripPrefix hex).length % 2 ≠ 0 then .error "hex string has odd length"
  else decodePairs (stripPrefix hex)

def hexLetters : Bytes := ascii "0123456789abcdefABCDEF"

def withoutPrefix : Bytes → Bytes
  | 0x30 :: 0x78 :: hex => hex
  | 0x30 :: 0x58 :: hex => hex
  | hex => hex

structure IsHexText (text : Bytes) : Prop where
  even : Even text.length
  letters : ∀ c ∈ text, c ∈ hexLetters

instance : DecidablePred IsHexText := fun text =>
  decidable_of_iff (Even text.length ∧ ∀ c ∈ text, c ∈ hexLetters)
    ⟨fun h => ⟨h.1, h.2⟩, fun h => ⟨h.even, h.letters⟩⟩

def lower (c : UInt8) : UInt8 := (Char.ofNat c.toNat).toLower.toUInt8

def toHex (bytes : Bytes) : Bytes := (hexText bytes).map Char.toUInt8

lemma exists_of_range {a b c : UInt8} (h : a ≤ c ∧ c ≤ b) :
    ∃ n, a.toNat ≤ n ∧ n ≤ b.toNat ∧ c = UInt8.ofNat n :=
  ⟨c.toNat, UInt8.le_iff_toNat_le.mp h.1, UInt8.le_iff_toNat_le.mp h.2, by simp⟩

lemma nibble_ok {c : UInt8} {d : ℕ} (h : nibble c = .ok d) :
    c ∈ hexLetters ∧ d < 16 ∧ (Nat.digitChar d).toUInt8 = lower c := by
  unfold nibble at h
  split_ifs at h with hdigit hsmall hcapital <;> obtain rfl := Except.ok.inj h
  · obtain ⟨n, hlo, hhi, rfl⟩ := exists_of_range hdigit
    change 48 ≤ n at hlo
    change n ≤ 57 at hhi
    interval_cases n <;> decide
  · obtain ⟨n, hlo, hhi, rfl⟩ := exists_of_range hsmall
    change 97 ≤ n at hlo
    change n ≤ 102 at hhi
    interval_cases n <;> decide
  · obtain ⟨n, hlo, hhi, rfl⟩ := exists_of_range hcapital
    change 65 ≤ n at hlo
    change n ≤ 70 at hhi
    interval_cases n <;> decide

lemma nibble_letter {c : UInt8} (h : c ∈ hexLetters) : ∃ d, nibble c = .ok d := by
  have hall : ∀ c ∈ hexLetters, (nibble c).toOption.isSome = true := by decide +kernel
  have hc := hall c h
  cases hn : nibble c with
  | ok d => exact ⟨d, rfl⟩
  | error e => simp [hn, Except.toOption] at hc

lemma nibble_error {c : UInt8} {error : String} (h : nibble c = .error error) :
    c ∉ hexLetters ∧ error = "invalid hex character" := by
  refine ⟨fun hc => ?_, ?_⟩
  · obtain ⟨d, hd⟩ := nibble_letter hc
    rw [hd] at h
    cases h
  · unfold nibble at h
    split_ifs at h
    exact (Except.error.inj h).symm

lemma toHex_byte {high low : ℕ} (hhigh : high < 16) (hlow : low < 16) (out : Bytes) :
    toHex (UInt8.ofNat (high <<< 4 ||| low) :: out) =
      (Nat.digitChar high).toUInt8 :: (Nat.digitChar low).toUInt8 :: toHex out := by
  have hbyte : high <<< 4 ||| low = 16*high + low := by
    rw [← Nat.shiftLeft_add_eq_or_of_lt hlow, Nat.shiftLeft_eq]
    omega
  have hvalue : (UInt8.ofNat (high <<< 4 ||| low)).toNat = 16*high + low := by
    rw [hbyte, UInt8.toNat_ofNat']
    omega
  rw [toHex, hexText_cons, hvalue, fixedHex_two hhigh hlow]
  rfl

lemma toHex_length (bytes : Bytes) : (toHex bytes).length = 2 * bytes.length := by
  rw [toHex, List.length_map, hexText_length]

lemma decodePairs_ok {hex out : Bytes} (heven : Even hex.length) (h : decodePairs hex = .ok out) :
    (∀ c ∈ hex, c ∈ hexLetters) ∧ toHex out = hex.map lower := by
  fun_induction decodePairs hex generalizing out with
  | case1 =>
    obtain rfl := Except.ok.inj h
    exact ⟨by simp, rfl⟩
  | case2 => simp at heven
  | case3 c c' hex ih =>
    obtain ⟨high, hhigh, h⟩ := bind_ok h
    obtain ⟨low, hlow, h⟩ := bind_ok h
    obtain ⟨out', hout, h⟩ := bind_ok h
    obtain rfl := Except.ok.inj h
    obtain ⟨hc, hhigh16, hlower⟩ := nibble_ok hhigh
    obtain ⟨hc', hlow16, hlower'⟩ := nibble_ok hlow
    have heven' : Even hex.length :=
      (Nat.even_add.mp (show Even (hex.length + 2) from heven)).mpr even_two
    obtain ⟨hletters, hhex⟩ := ih heven' hout
    refine ⟨?_, ?_⟩
    · intro x hx
      rcases List.mem_cons.mp hx with rfl | hx
      · exact hc
      rcases List.mem_cons.mp hx with rfl | hx
      · exact hc'
      · exact hletters x hx
    · rw [toHex_byte hhigh16 hlow16, hhex, hlower, hlower']
      rfl

lemma decodePairs_letters {hex : Bytes} (h : ∀ c ∈ hex, c ∈ hexLetters) :
    ∃ out, decodePairs hex = .ok out := by
  fun_induction decodePairs hex with
  | case1 => exact ⟨[], rfl⟩
  | case2 => exact ⟨[], rfl⟩
  | case3 c c' hex ih =>
    obtain ⟨high, hhigh⟩ := nibble_letter (h c (by simp))
    obtain ⟨low, hlow⟩ := nibble_letter (h c' (by simp))
    obtain ⟨out, hout⟩ := ih fun x hx => h x (by simp [hx])
    rw [hhigh, hlow, hout]
    exact ⟨_, rfl⟩

lemma decodePairs_error {hex : Bytes} {error : String} (h : decodePairs hex = .error error) :
    (∃ c ∈ hex, c ∉ hexLetters) ∧ error = "invalid hex character" := by
  fun_induction decodePairs hex with
  | case1 => cases h
  | case2 => cases h
  | case3 c c' hex ih =>
    rcases bind_error h with h | ⟨high, _, h⟩
    · exact ⟨⟨c, by simp, (nibble_error h).1⟩, (nibble_error h).2⟩
    rcases bind_error h with h | ⟨low, _, h⟩
    · exact ⟨⟨c', by simp, (nibble_error h).1⟩, (nibble_error h).2⟩
    rcases bind_error h with h | ⟨out, _, h⟩
    · obtain ⟨⟨x, hx, hletter⟩, herror⟩ := ih h
      exact ⟨⟨x, by simp [hx], hletter⟩, herror⟩
    · cases h

lemma stripPrefix_eq (hex : Bytes) : stripPrefix hex = withoutPrefix hex := by
  fun_cases withoutPrefix hex with
  | case1 hex => rfl
  | case2 hex => rfl
  | case3 hex hlower hupper =>
    rw [stripPrefix, if_neg]
    rw [Bool.or_eq_true, List.isPrefixOf_iff_prefix, List.isPrefixOf_iff_prefix]
    rintro (⟨rest, hrest⟩ | ⟨rest, hrest⟩)
    · exact hlower rest hrest.symm
    · exact hupper rest hrest.symm

theorem fromHex_ok_iff {hex : Bytes} :
    (∃ out, fromHex hex = .ok out) ↔ IsHexText (withoutPrefix hex) := by
  unfold fromHex
  rw [stripPrefix_eq]
  constructor
  · rintro ⟨out, h⟩
    split_ifs at h with hodd
    have heven : Even (withoutPrefix hex).length := Nat.even_iff.mpr (not_not.mp hodd)
    exact ⟨heven, (decodePairs_ok heven h).1⟩
  · intro h
    rw [if_neg (not_not.mpr (Nat.even_iff.mp h.even))]
    exact decodePairs_letters h.letters

example : ¬ IsHexText (withoutPrefix (ascii "0x0x")) := by decide +kernel

/-- An error names the check that failed, the length first. -/
theorem fromHex_error {hex : Bytes} {error : String} (h : fromHex hex = .error error) :
    Odd (withoutPrefix hex).length ∧ error = "hex string has odd length" ∨
    Even (withoutPrefix hex).length ∧ (∃ c ∈ withoutPrefix hex, c ∉ hexLetters) ∧
      error = "invalid hex character" := by
  unfold fromHex at h
  rw [stripPrefix_eq] at h
  split_ifs at h with hodd
  · exact .inl ⟨Nat.odd_iff.mpr (Nat.mod_two_ne_zero.mp hodd), (Except.error.inj h).symm⟩
  · exact .inr ⟨Nat.even_iff.mpr (not_not.mp hodd), decodePairs_error h⟩

lemma toHex_fromHex {hex out : Bytes} (h : fromHex hex = .ok out) :
    toHex out = (withoutPrefix hex).map lower := by
  have htext := fromHex_ok_iff.mp ⟨out, h⟩
  rw [fromHex, stripPrefix_eq, if_neg (not_not.mpr (Nat.even_iff.mp htext.even))] at h
  exact (decodePairs_ok htext.even h).2

lemma fromHex_length {hex out : Bytes} (h : fromHex hex = .ok out) :
    2 * out.length = (withoutPrefix hex).length := by
  have hlen := congrArg List.length (toHex_fromHex h)
  rwa [toHex_length, List.length_map] at hlen

lemma lowerHex_byte {c : Char} (h : IsLowerHex c) :
    c.toUInt8 ∈ hexLetters ∧ lower c.toUInt8 = c.toUInt8 ∧ Char.ofNat c.toUInt8.toNat = c := by
  have hc : c ∈ ['0', '1', '2', '3', '4', '5', '6', '7', '8', '9', 'a', 'b', 'c', 'd', 'e', 'f'] := h
  fin_cases hc <;> decide

lemma toHex_isHexText (bytes : Bytes) : IsHexText (toHex bytes) := by
  refine ⟨by rw [toHex_length]; exact even_two_mul _, fun x hx => ?_⟩
  obtain ⟨c, hc, rfl⟩ := List.mem_map.mp hx
  exact (lowerHex_byte (hexText_lowerHex bytes c hc)).1

lemma lower_toHex (bytes : Bytes) : (toHex bytes).map lower = toHex bytes := by
  rw [toHex, List.map_map]
  exact List.map_congr_left fun c hc => (lowerHex_byte (hexText_lowerHex bytes c hc)).2.1

lemma toHex_inj {bytes bytes' : Bytes} (h : toHex bytes = toHex bytes') : bytes = bytes' := by
  have hchars (bytes : Bytes) : (toHex bytes).map (fun b => Char.ofNat b.toNat) = hexText bytes := by
    rw [toHex, List.map_map]
    have hback := fun c hc => (lowerHex_byte (hexText_lowerHex bytes c hc)).2.2
    exact (List.map_congr_left hback).trans (List.map_id _)
  apply hexText_inj
  rw [← hchars bytes, h, hchars bytes']

lemma withoutPrefix_letters {text : Bytes} (h : ∀ c ∈ text, c ∈ hexLetters) :
    withoutPrefix text = text := by
  fun_cases withoutPrefix text with
  | case1 rest => exact absurd (h 0x78 (by simp)) (by decide)
  | case2 rest => exact absurd (h 0x58 (by simp)) (by decide)
  | case3 => rfl

lemma fromHex_toHex (bytes : Bytes) : fromHex (toHex bytes) = .ok bytes := by
  have htext := toHex_isHexText bytes
  have hprefix := withoutPrefix_letters htext.letters
  rw [← hprefix] at htext
  obtain ⟨out, hout⟩ := fromHex_ok_iff.mpr htext
  have hsame : toHex out = toHex bytes := by rw [toHex_fromHex hout, hprefix, lower_toHex]
  rw [hout, toHex_inj hsame]

example : fromHex (ascii "0XaF") = .ok [0xAF] := by decide

/-- `fromHex` succeeds exactly on even numbers of hexadecimal letters behind at most one prefix. It
then returns half as many bytes, and these in hexadecimal are the text in lowercase. Every other
text is an error. All bytes are decoded from their hexadecimal text. -/
theorem fromHex_accepts_exactly :
    (∀ hex : Bytes,
      ((∃ out, fromHex hex = .ok out) ↔ IsHexText (withoutPrefix hex)) ∧
      (∀ out, fromHex hex = .ok out →
        2 * out.length = (withoutPrefix hex).length ∧ toHex out = (withoutPrefix hex).map lower) ∧
      (¬ IsHexText (withoutPrefix hex) → ∃ error, fromHex hex = .error error)) ∧
    ∀ bytes : Bytes, fromHex (toHex bytes) = .ok bytes := by
  refine ⟨fun hex => ⟨fromHex_ok_iff, fun out h => ?_, fun hbad => ?_⟩, fromHex_toHex⟩
  · exact ⟨fromHex_length h, toHex_fromHex h⟩
  · cases hresult : fromHex hex with
    | ok out => exact absurd (fromHex_ok_iff.mp ⟨out, hresult⟩) hbad
    | error error => exact ⟨error, rfl⟩

/-- The key that a signer is made with. -/
def readPrivateKey (privateKeyHex : Bytes) : Except String Word := do
  let key ← fromHex privateKeyHex
  if h : key.length = 32 then .ok ⟨key.toArray, by simp [h]⟩
  else .error "Hyperliquid signer: private key must be 32 bytes"

/-- The last 20 bytes of the public key's hash. -/
def address (hash : Word) : String := String.ofList ('0' :: 'x' :: hexText (hash.toList.drop 12))

structure L1Signer where
  privateKey : Word
  source : Bytes
  address : String

section Secp256k1

variable (keccak256 : Bytes → Word) (seckeyVerify : Word → Bool)
  (pubkeyCreate : Word → Option (Vector UInt8 65))

def signerOfKey (isMainnet : Bool) (privateKey : Word) : Except String L1Signer :=
  if seckeyVerify privateKey = false then .error "Hyperliquid signer: invalid secp256k1 private key"
  else
    match pubkeyCreate privateKey with
    | none => .error "Hyperliquid signer: pubkey derivation failed"
    | some uncompressed =>
      let hash := keccak256 (uncompressed.toList.drop 1)
      .ok ⟨privateKey, source isMainnet, address hash⟩

def l1Signer (privateKeyHex : Bytes) (isMainnet : Bool) : Except String L1Signer := do
  let privateKey ← readPrivateKey privateKeyHex
  signerOfKey keccak256 seckeyVerify pubkeyCreate isMainnet privateKey

end Secp256k1

lemma readPrivateKey_ok {privateKeyHex : Bytes} {key : Word}
    (h : readPrivateKey privateKeyHex = .ok key) : fromHex privateKeyHex = .ok key.toList := by
  obtain ⟨out, hout, h⟩ := bind_ok h
  split_ifs at h with hsize
  obtain rfl := Except.ok.inj h
  exact hout

/-- A key is 64 hexadecimal letters behind at most one prefix. -/
theorem readPrivateKey_ok_iff {privateKeyHex : Bytes} :
    (∃ key, readPrivateKey privateKeyHex = .ok key) ↔
      IsHexText (withoutPrefix privateKeyHex) ∧ (withoutPrefix privateKeyHex).length = 64 := by
  constructor
  · rintro ⟨key, h⟩
    have hkey := readPrivateKey_ok h
    have hlen := fromHex_length hkey
    rw [Vector.length_toList] at hlen
    exact ⟨fromHex_ok_iff.mp ⟨_, hkey⟩, hlen.symm⟩
  · rintro ⟨htext, hlen⟩
    obtain ⟨out, hout⟩ := fromHex_ok_iff.mpr htext
    have hsize : out.length = 32 := by
      have := fromHex_length hout
      omega
    refine ⟨⟨out.toArray, by simp [hsize]⟩, ?_⟩
    rw [readPrivateKey, hout]
    exact dif_pos hsize

section Secp256k1

variable {keccak256 : Bytes → Word} {seckeyVerify : Word → Bool}
  {pubkeyCreate : Word → Option (Vector UInt8 65)}

lemma signerOfKey_privateKey {isMainnet : Bool} {key : Word} {signer : L1Signer}
    (h : signerOfKey keccak256 seckeyVerify pubkeyCreate isMainnet key = .ok signer) :
    signer.privateKey = key := by
  unfold signerOfKey at h
  split_ifs at h
  cases hpubkey : pubkeyCreate key with
  | none => rw [hpubkey] at h; cases h
  | some uncompressed =>
    rw [hpubkey] at h
    rw [← Except.ok.inj h]

lemma l1Signer_privateKey {privateKeyHex : Bytes} {isMainnet : Bool} {signer : L1Signer}
    (h : l1Signer keccak256 seckeyVerify pubkeyCreate privateKeyHex isMainnet = .ok signer) :
    toHex signer.privateKey.toList = (withoutPrefix privateKeyHex).map lower ∧
      signerOfKey keccak256 seckeyVerify pubkeyCreate isMainnet signer.privateKey = .ok signer := by
  obtain ⟨key, hkey, hsigner⟩ := bind_ok h
  obtain rfl := signerOfKey_privateKey hsigner
  exact ⟨toHex_fromHex (readPrivateKey_ok hkey), hsigner⟩

/-- Two texts make the same signer exactly when they differ in the prefix and in case only. -/
theorem l1Signer_eq_iff {privateKeyHex privateKeyHex' : Bytes} {isMainnet : Bool}
    {signer signer' : L1Signer}
    (h : l1Signer keccak256 seckeyVerify pubkeyCreate privateKeyHex isMainnet = .ok signer)
    (h' : l1Signer keccak256 seckeyVerify pubkeyCreate privateKeyHex' isMainnet = .ok signer') :
    signer = signer' ↔
      (withoutPrefix privateKeyHex).map lower = (withoutPrefix privateKeyHex').map lower := by
  obtain ⟨htext, hsigner⟩ := l1Signer_privateKey h
  obtain ⟨htext', hsigner'⟩ := l1Signer_privateKey h'
  rw [← htext, ← htext']
  refine ⟨fun heq => by rw [heq], fun heq => ?_⟩
  rw [Vector.toList_inj.mp (toHex_inj heq), hsigner'] at hsigner
  exact (Except.ok.inj hsigner).symm

end Secp256k1

end HyperliquidApi.Signer
