import HyperliquidApi.MinimalHex
import HyperliquidApi.PrivateKeys

/-!
# Signatures

`signL1Action` signs the digest with a recoverable signature and sends its two halves as numbers.
The venue has only these and the request, and finds the signer by recovering a public key. What the
library signs and recovers are parameters.
-/
namespace HyperliquidApi.Signer
open ByteEncodings FixedHex MsgPack

/-- A serialized signature, `compact`. -/
abbrev Compact := Vector UInt8 64

def Compact.r (compact : Compact) : Word := ⟨(compact.toList.take 32).toArray, by simp⟩

def Compact.s (compact : Compact) : Word := ⟨(compact.toList.drop 32).toArray, by simp⟩

structure EthSignature where
  r : String
  s : String
  v : ℕ
deriving DecidableEq

section
variable (keccak256 : Bytes → Word) (signRecoverable : Word → Word → Option (Compact × ℕ))

def signL1Action (signer : L1Signer) (action : Value) (nonce : UInt64) :
    Except String EthSignature :=
  match signRecoverable signer.privateKey (agentDigest keccak256 signer.source action nonce) with
  | none => .error "Hyperliquid signer: signing failed"
  | some (compact, recid) => .ok ⟨toMinimalHex compact.r, toMinimalHex compact.s, 27 + recid⟩

/-- The word that a number after `0x` stands for. -/
def readWord (text : String) : Word := wordOf (hexValue (text.toList.drop 2))

def EthSignature.compact (signature : EthSignature) : Compact :=
  ⟨((readWord signature.r).toList ++ (readWord signature.s).toList).toArray, by simp⟩

/-- Whom a venue on the network takes a request to be from. -/
def recoveredSigner (recover : Word → Compact → ℕ → Option (Vector UInt8 65)) (isMainnet : Bool)
    (action : Value) (nonce : UInt64) (signature : EthSignature) : Option String :=
  (recover (digest keccak256 isMainnet action nonce) signature.compact (signature.v - 27)).map
    fun uncompressed => address (keccak256 (uncompressed.toList.drop 1))

end

lemma ofBigEndian_lt (bytes : Bytes) : ofBigEndian bytes < 256 ^ bytes.length := by
  induction bytes using List.reverseRecOn with
  | nil => simp [ofBigEndian]
  | append_singleton bytes b ih =>
    have hb : b.toNat < 256 := b.toNat_lt
    calc ofBigEndian (bytes ++ [b]) = 256 * ofBigEndian bytes + b.toNat := ofBigEndian_concat bytes b
      _ < 256 * (ofBigEndian bytes + 1) := by omega
      _ ≤ 256 * 256 ^ bytes.length := Nat.mul_le_mul_left 256 ih
      _ = 256 ^ (bytes ++ [b]).length := by rw [List.length_append, List.length_singleton, pow_succ']

lemma wordValue_lt (word32 : Word) : wordValue word32 < 2^256 := by
  have hpow : 256 ^ word32.toList.length = 2^256 := by
    rw [Vector.length_toList]
    norm_num
  rw [wordValue, ← hpow]
  exact ofBigEndian_lt word32.toList

/-- A word is read back from its number. -/
lemma readWord_toMinimalHex (word32 : Word) : readWord (toMinimalHex word32) = word32 := by
  have hdigits : (toMinimalHex word32).toList.drop 2 = Nat.toDigits 16 (wordValue word32) := by
    rw [toMinimalHex_eq, String.toList_ofList]
    rfl
  rw [readWord, hdigits, hexValue_toDigits]
  exact wordValue_inj (wordValue_wordOf (wordValue_lt word32))

lemma Compact.toList_eq (compact : Compact) :
    compact.r.toList ++ compact.s.toList = compact.toList := List.take_append_drop 32 compact.toList

lemma compact_toMinimalHex (compact : Compact) (v : ℕ) :
    EthSignature.compact ⟨toMinimalHex compact.r, toMinimalHex compact.s, v⟩ = compact := by
  have hr := readWord_toMinimalHex compact.r
  have hs := readWord_toMinimalHex compact.s
  apply Vector.toList_inj.mp
  show (readWord (toMinimalHex compact.r)).toList ++ (readWord (toMinimalHex compact.s)).toList =
    compact.toList
  rw [hr, hs, compact.toList_eq]

section
variable {keccak256 : Bytes → Word} {seckeyVerify : Word → Bool}
  {pubkeyCreate : Word → Option (Vector UInt8 65)}
  {signRecoverable : Word → Word → Option (Compact × ℕ)}
  {recover : Word → Compact → ℕ → Option (Vector UInt8 65)}

lemma signerOfKey_ok {isMainnet : Bool} {key : Word} {signer : L1Signer}
    (h : signerOfKey keccak256 seckeyVerify pubkeyCreate isMainnet key = .ok signer) :
    ∃ uncompressed, pubkeyCreate key = some uncompressed ∧
      signer = ⟨key, source isMainnet, address (keccak256 (uncompressed.toList.drop 1))⟩ := by
  unfold signerOfKey at h
  split_ifs at h
  cases hpubkey : pubkeyCreate key with
  | none =>
    rw [hpubkey] at h
    cases h
  | some uncompressed =>
    rw [hpubkey] at h
    exact ⟨uncompressed, rfl, (Except.ok.inj h).symm⟩

/-- If signatures recover to the key they were made with, the venue finds the signer's address. -/
lemma recoveredSigner_signL1Action {isMainnet : Bool} {key : Word} {signer : L1Signer}
    (hsigner : signerOfKey keccak256 seckeyVerify pubkeyCreate isMainnet key = .ok signer)
    (hrecover : ∀ key digest compact recid, signRecoverable key digest = some (compact, recid) →
      recover digest compact recid = pubkeyCreate key)
    {action : Value} {nonce : UInt64} {signature : EthSignature}
    (h : signL1Action keccak256 signRecoverable signer action nonce = .ok signature) :
    recoveredSigner keccak256 recover isMainnet action nonce signature = some signer.address := by
  obtain ⟨uncompressed, hpubkey, rfl⟩ := signerOfKey_ok hsigner
  unfold signL1Action at h
  dsimp only at h
  rw [← digest] at h
  split at h
  · cases h
  rename_i compact recid hsign
  obtain rfl := Except.ok.inj h
  rw [recoveredSigner, compact_toMinimalHex, Nat.add_sub_cancel_left,
    hrecover key _ compact recid hsign, hpubkey]
  rfl

end

end HyperliquidApi.Signer
