import HyperliquidApi.MsgPack
import HyperliquidApi.Keccak

/-!
# Signing digests

The actions that `placeLimit` and `cancelByCloid` build and the digest of them that
`signL1Action` signs: the packed action, the nonce and the vault byte are hashed into a connection
id, which goes with the network into an EIP-712 struct hash, and that with the domain separator
into the digest.
-/
namespace HyperliquidApi.Signer
open ByteEncodings MsgPack

abbrev Bytes := List UInt8

/-- `std::array<unsigned char, 32>` -/
abbrev Word := Vector UInt8 32

def ascii (s : String) : Bytes := s.toList.map fun c => UInt8.ofNat c.toNat

inductive Tif
  | Alo
  | Gtc
  | Ioc
deriving DecidableEq

def tifName : Tif → Bytes
  | .Alo => ascii "Alo"
  | .Gtc => ascii "Gtc"
  | .Ioc => ascii "Ioc"

/-- The action of `placeLimit`, fields in the order they are assigned. -/
def placeLimit (asset : Int32) (isBuy : Bool) (pxWire szWire : Bytes) (reduceOnly : Bool) (tif : Tif)
    (cloid : Bytes) : Value :=
  let order := .object [
    (ascii "a", .int asset.toInt),
    (ascii "b", .bool isBuy),
    (ascii "p", .str pxWire),
    (ascii "s", .str szWire),
    (ascii "r", .bool reduceOnly),
    (ascii "t", .object [(ascii "limit", .object [(ascii "tif", .str (tifName tif))])]),
    (ascii "c", .str cloid)]
  .object [
    (ascii "type", .str (ascii "order")),
    (ascii "orders", .array [order]),
    (ascii "grouping", .str (ascii "na"))]

/-- The action of `cancelByCloid`. -/
def cancelByCloid (asset : Int32) (cloid : Bytes) : Value :=
  let cancel := .object [(ascii "asset", .int asset.toInt), (ascii "cloid", .str cloid)]
  .object [
    (ascii "type", .str (ascii "cancelByCloid")),
    (ascii "cancels", .array [cancel])]

/-- An invocation with its arguments. -/
inductive Operation
  | placeLimit (asset : Int32) (isBuy : Bool) (pxWire szWire : Bytes) (reduceOnly : Bool) (tif : Tif)
      (cloid : Bytes)
  | cancelByCloid (asset : Int32) (cloid : Bytes)
deriving DecidableEq

def Operation.action : Operation → Value
  | .placeLimit asset isBuy pxWire szWire reduceOnly tif cloid =>
    Signer.placeLimit asset isBuy pxWire szWire reduceOnly tif cloid
  | .cancelByCloid asset cloid => Signer.cancelByCloid asset cloid

/-- The strings have lengths MessagePack can write. -/
def Operation.Short : Operation → Prop
  | .placeLimit _ _ pxWire szWire _ _ cloid =>
    pxWire.length < 2^32 ∧ szWire.length < 2^32 ∧ cloid.length < 2^32
  | .cancelByCloid _ cloid => cloid.length < 2^32

instance : DecidablePred Operation.Short := by
  intro op
  unfold Operation.Short
  cases op <;> infer_instance

/-- `nonce >> shift & 0xFF` for `shift` from 56 down to 0. -/
def nonceBytes (nonce : UInt64) : Bytes :=
  ([56, 48, 40, 32, 24, 16, 8, 0] : List UInt64).map fun shift => (nonce >>> shift &&& 0xFF).toUInt8

/-- The bytes of the connection id: the action, the nonce and the byte for no vault. -/
def actionData (action : Value) (nonce : UInt64) : Bytes :=
  encode action ++ nonceBytes nonce ++ [0x00]

def source (isMainnet : Bool) : Bytes := if isMainnet then ascii "a" else ascii "b"

section Hashes

variable (keccak256 : Bytes → Word)

def exchangeDomainSeparator : Word :=
  let chainId := List.replicate 30 0x00 ++ [0x05, 0x39]
  let verifyingContract := List.replicate 32 0x00
  keccak256 (
    (keccak256 (ascii
      "EIP712Domain(string name,string version,uint256 chainId,address verifyingContract)")).toList ++
    (keccak256 (ascii "Exchange")).toList ++
    (keccak256 (ascii "1")).toList ++
    chainId ++
    verifyingContract)

def structBuf (source : Bytes) (connectionId : Word) : Bytes :=
  let agentTypeHash := keccak256 (ascii "Agent(string source,bytes32 connectionId)")
  agentTypeHash.toList ++ (keccak256 source).toList ++ connectionId.toList

def digestBuf (structHash : Word) : Bytes :=
  [0x19, 0x01] ++ (exchangeDomainSeparator keccak256).toList ++ structHash.toList

def connectionId (action : Value) (nonce : UInt64) : Word := keccak256 (actionData action nonce)

def structHash (source : Bytes) (action : Value) (nonce : UInt64) : Word :=
  keccak256 (structBuf keccak256 source (connectionId keccak256 action nonce))

/-- The `digest` that `signL1Action` signs for an agent with this source. -/
def agentDigest (source : Bytes) (action : Value) (nonce : UInt64) : Word :=
  keccak256 (digestBuf keccak256 (structHash keccak256 source action nonce))

/-- The digest on a network. -/
def digest (isMainnet : Bool) (action : Value) (nonce : UInt64) : Word :=
  agentDigest keccak256 (source isMainnet) action nonce

/-- The strings hashed on the way to a digest that depend on what is signed. -/
def hashed (isMainnet : Bool) (action : Value) (nonce : UInt64) : List Bytes :=
  [actionData action nonce,
    source isMainnet,
    structBuf keccak256 (source isMainnet) (connectionId keccak256 action nonce),
    digestBuf keccak256 (structHash keccak256 (source isMainnet) action nonce)]

/-- No two of these strings have the same hash. A function on all strings into 32 bytes is never
injective, so collisions are excluded where they would matter. -/
def CollisionFree (inputs : List Bytes) : Prop :=
  ∀ x ∈ inputs, ∀ y ∈ inputs, keccak256 x = keccak256 y → x = y

end Hashes

lemma tifName_inj {tif tif' : Tif} (h : tifName tif = tifName tif') : tif = tif' := by
  cases tif <;> cases tif' <;> first | rfl | exact absurd h (by decide)

lemma source_inj {m m' : Bool} (h : source m = source m') : m = m' := by
  cases m <;> cases m' <;> first | rfl | exact absurd h (by decide)

lemma nonceBytes_eq (nonce : UInt64) : nonceBytes nonce = bigEndian 8 nonce.toNat := by
  have byte (shift : UInt64) : (nonce >>> shift &&& 0xFF).toUInt8 =
      UInt8.ofNat (nonce.toNat / 2^(shift.toNat % 64) % 256) := by
    apply UInt8.toNat_inj.mp
    rw [UInt64.toNat_toUInt8, UInt64.toNat_and, UInt64.toNat_shiftRight, UInt8.toNat_ofNat',
      Nat.shiftRight_eq_div_pow, show (0xFF : UInt64).toNat = 2^8 - 1 from rfl,
      Nat.and_two_pow_sub_one_eq_mod]
  simp only [nonceBytes, List.map_cons, List.map_nil, byte, bigEndian, List.nil_append,
    List.cons_append, Nat.div_div_eq_div_mul]
  simp

lemma nonceBytes_inj {n n' : UInt64} (h : nonceBytes n = nonceBytes n') : n = n' := by
  rw [nonceBytes_eq, nonceBytes_eq] at h
  apply UInt64.toNat_inj.mp
  exact bigEndian_inj (UInt64.toNat_lt n) (UInt64.toNat_lt n') h

lemma int32_fits (i : Int32) : (Header.int i.toInt).Fits := by
  have hmin := i.le_toInt
  have hmax := i.toInt_lt
  constructor <;> omega

lemma ascii_fits (s : String) (h : s.length < 2^32 := by decide) :
    (Header.str (ascii s).length).Fits := by
  show (ascii s).length < 2^32
  rw [ascii, List.length_map, String.length_toList]
  exact h

lemma members_fit {ms : List (Bytes × Value)} (h : ms.length < 2^32 := by simp) :
    (Header.object ms.length).Fits := h

lemma items_fit {vs : List Value} (h : vs.length < 2^32 := by simp) :
    (Header.array vs.length).Fits := h

lemma Operation.action_valid {op : Operation} (short : op.Short) : op.action.Valid := by
  cases op with
  | placeLimit asset isBuy pxWire szWire reduceOnly tif cloid =>
    obtain ⟨hpx, hsz, hcloid⟩ := short
    have htif : (Header.str (tifName tif).length).Fits := by cases tif <;> exact ascii_fits _
    simp only [Operation.action, Signer.placeLimit, Value.Valid, ValidItems, ValidMembers, and_true,
      true_and]
    refine ⟨members_fit, ascii_fits _, ascii_fits _, ascii_fits _, ?_, ascii_fits _, ascii_fits _⟩
    refine ⟨items_fit, members_fit, ascii_fits _, int32_fits asset, ascii_fits _, ascii_fits _, hpx,
      ascii_fits _, hsz, ascii_fits _, ascii_fits _, ?_, ascii_fits _, hcloid⟩
    exact ⟨members_fit, ascii_fits _, members_fit, ascii_fits _, htif⟩
  | cancelByCloid asset cloid =>
    have hcloid : cloid.length < 2^32 := short
    simp only [Operation.action, Signer.cancelByCloid, Value.Valid, ValidItems, ValidMembers,
      and_true]
    refine ⟨members_fit, ascii_fits _, ascii_fits _, ascii_fits _, ?_⟩
    exact ⟨items_fit, members_fit, ascii_fits _, int32_fits asset, ascii_fits _, hcloid⟩

lemma Operation.action_inj {op op' : Operation} (h : op.action = op'.action) : op = op' := by
  have htype : ascii "order" ≠ ascii "cancelByCloid" := by decide
  cases op <;> cases op' <;>
    simp only [Operation.action, Signer.placeLimit, Signer.cancelByCloid, Value.object.injEq,
      Value.array.injEq, Value.str.injEq, Value.int.injEq, Value.bool.injEq, List.cons.injEq,
      Prod.mk.injEq, true_and, and_true, Int32.toInt_inj] at h
  · obtain ⟨rfl, rfl, rfl, rfl, rfl, htif, rfl⟩ := h
    rw [tifName_inj htif]
  · exact absurd h.1 htype
  · exact absurd h.1.symm htype
  · obtain ⟨rfl, rfl⟩ := h
    rfl

/-- The packed action shows where it ends, so the nonce after it needs no separator. -/
lemma actionData_inj {op op' : Operation} {nonce nonce' : UInt64} (short : op.Short)
    (short' : op'.Short) (h : actionData op.action nonce = actionData op'.action nonce') :
    op = op' ∧ nonce = nonce' := by
  unfold actionData at h
  rw [List.append_assoc, List.append_assoc] at h
  obtain ⟨haction, hrest⟩ :=
    encode_selfDelimiting (Operation.action_valid short) (Operation.action_valid short') h
  have hnonce := (List.append_singleton_inj.mp hrest).1
  exact ⟨Operation.action_inj haction, nonceBytes_inj hnonce⟩

lemma word_append_inj {u v : Word} {x y : Bytes} (h : u.toList ++ x = v.toList ++ y) :
    u = v ∧ x = y := by
  obtain ⟨hw, hrest⟩ := List.append_inj h (by rw [Vector.length_toList, Vector.length_toList])
  exact ⟨Vector.toList_inj.mp hw, hrest⟩

variable {keccak256 : Bytes → Word}

lemma structBuf_inj {source source' : Bytes} {c c' : Word}
    (h : structBuf keccak256 source c = structBuf keccak256 source' c') :
    keccak256 source = keccak256 source' ∧ c = c' := by
  unfold structBuf at h
  rw [List.append_assoc, List.append_assoc] at h
  obtain ⟨hsource, hc⟩ := word_append_inj (List.append_cancel_left h)
  exact ⟨hsource, Vector.toList_inj.mp hc⟩

lemma digestBuf_inj {u v : Word} (h : digestBuf keccak256 u = digestBuf keccak256 v) : u = v :=
  Vector.toList_inj.mp (List.append_cancel_left h)

lemma collisionFree_of_nodup {γ : Type*} {f : Word → γ} {inputs : List Bytes}
    (h : (inputs.map fun x => f (keccak256 x)).Nodup) : CollisionFree keccak256 inputs := by
  intro x hx y hy hxy
  exact List.inj_on_of_nodup_map h hx hy (congrArg f hxy)

/-- Equal digests come from equal networks and equal bytes of action and nonce. -/
lemma data_eq_of_digest_eq {action action' : Value} {nonce nonce' : UInt64}
    {isMainnet isMainnet' : Bool} {inputs : List Bytes} (free : CollisionFree keccak256 inputs)
    (hinputs : hashed keccak256 isMainnet action nonce ⊆ inputs)
    (hinputs' : hashed keccak256 isMainnet' action' nonce' ⊆ inputs)
    (h : digest keccak256 isMainnet action nonce = digest keccak256 isMainnet' action' nonce') :
    isMainnet = isMainnet' ∧ actionData action nonce = actionData action' nonce' := by
  have hdigest := free _ (hinputs (by simp [hashed])) _ (hinputs' (by simp [hashed])) h
  have hstruct := free _ (hinputs (by simp [hashed])) _ (hinputs' (by simp [hashed]))
    (digestBuf_inj hdigest)
  obtain ⟨hsource, hconnection⟩ := structBuf_inj hstruct
  have hnetwork := free _ (hinputs (by simp [hashed])) _ (hinputs' (by simp [hashed])) hsource
  exact ⟨source_inj hnetwork,
    free _ (hinputs (by simp [hashed])) _ (hinputs' (by simp [hashed])) hconnection⟩

/-- Without a collision among the strings hashed, two digests agree exactly when the operations
with all their arguments, the nonces and the networks do. -/
theorem digest_eq_iff {op op' : Operation} {nonce nonce' : UInt64} {isMainnet isMainnet' : Bool}
    (short : op.Short) (short' : op'.Short)
    (free : CollisionFree keccak256 (hashed keccak256 isMainnet op.action nonce ++
      hashed keccak256 isMainnet' op'.action nonce')) :
    digest keccak256 isMainnet op.action nonce = digest keccak256 isMainnet' op'.action nonce' ↔
      op = op' ∧ nonce = nonce' ∧ isMainnet = isMainnet' := by
  constructor
  · intro h
    obtain ⟨hnetwork, hdata⟩ := data_eq_of_digest_eq free (List.subset_append_left _ _)
      (List.subset_append_right _ _) h
    obtain ⟨hop, hnonce⟩ := actionData_inj short short' hdata
    exact ⟨hop, hnonce, hnetwork⟩
  · rintro ⟨rfl, rfl, rfl⟩
    rfl

/-- The order of the reference vectors, and the cancel of its cloid. -/
def vectorOrder : Operation :=
  .placeLimit 1 true (ascii "100") (ascii "100") false .Gtc
    (ascii "0x00000000000000000000000000000001")

def vectorCancel : Operation := .cancelByCloid 1 (ascii "0x00000000000000000000000000000001")

set_option maxRecDepth 20000 in
theorem digest_order_ne_cancel :
    digest Keccak.keccak256 true vectorOrder.action 0 ≠
      digest Keccak.keccak256 false vectorCancel.action 1 := by
  have firstBytes : ((hashed Keccak.keccak256 true vectorOrder.action 0 ++
      hashed Keccak.keccak256 false vectorCancel.action 1).map fun x =>
        (Keccak.keccak256 x).toList.take 2) =
      [[11, 165], [58, 194], [84, 187], [84, 166], [66, 149], [181, 85], [173, 254], [95, 241]] := by
    decide +kernel
  have free : CollisionFree Keccak.keccak256 (hashed Keccak.keccak256 true vectorOrder.action 0 ++
      hashed Keccak.keccak256 false vectorCancel.action 1) := by
    apply collisionFree_of_nodup (f := fun w => w.toList.take 2)
    rw [firstBytes]
    decide
  have hiff : digest Keccak.keccak256 true vectorOrder.action 0 =
      digest Keccak.keccak256 false vectorCancel.action 1 ↔
        vectorOrder = vectorCancel ∧ (0 : UInt64) = 1 ∧ true = false :=
    digest_eq_iff (by decide) (by decide) free
  intro h
  exact absurd (hiff.mp h).2.1 (by decide)

end HyperliquidApi.Signer
