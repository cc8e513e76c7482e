import HyperliquidApi.ByteEncodings

/-!
# MessagePack

Values without floats and their shortest encodings, object members in the order given. Each value
is written as a header (a first byte that fixes how many bytes of a number follow) and its
contents; the encoding tells where it ends and can be read back in one way only.
-/
namespace HyperliquidApi.MsgPack
open ByteEncodings

inductive Value
  | null
  | bool (b : Bool)
  | int (i : ℤ)
  | str (s : List UInt8)
  | array (items : List Value)
  | object (members : List (List UInt8 × Value))

/-- What the first bytes of an encoding say: a whole scalar, or a kind and a length. -/
inductive Header
  | null
  | bool (b : Bool)
  | int (i : ℤ)
  | str (length : ℕ)
  | array (length : ℕ)
  | object (length : ℕ)
deriving DecidableEq

/-- The values the format can hold. -/
def Header.Fits : Header → Prop
  | .null | .bool _ => True
  | .int i => -2^63 ≤ i ∧ i < 2^64
  | .str n | .array n | .object n => n < 2^32

/-- A first byte, and the number written after it in `width` bytes. -/
structure Form where
  tag : ℕ
  width : ℕ
  number : ℕ

def Form.bytes (f : Form) : List UInt8 := UInt8.ofNat f.tag :: bigEndian f.width f.number

def unsignedForm (n : ℕ) : Form :=
  if n < 2^7 then ⟨n, 0, 0⟩
  else if n < 2^8 then ⟨0xcc, 1, n⟩
  else if n < 2^16 then ⟨0xcd, 2, n⟩
  else if n < 2^32 then ⟨0xce, 4, n⟩
  else ⟨0xcf, 8, n⟩

/-- Two's complement. -/
def negativeForm (i : ℤ) : Form :=
  if -2^5 ≤ i then ⟨(i + 2^8).toNat, 0, 0⟩
  else if -2^7 ≤ i then ⟨0xd0, 1, (i + 2^8).toNat⟩
  else if -2^15 ≤ i then ⟨0xd1, 2, (i + 2^16).toNat⟩
  else if -2^31 ≤ i then ⟨0xd2, 4, (i + 2^32).toNat⟩
  else ⟨0xd3, 8, (i + 2^64).toNat⟩

def strForm (n : ℕ) : Form :=
  if n < 2^5 then ⟨0xa0 + n, 0, 0⟩
  else if n < 2^8 then ⟨0xd9, 1, n⟩
  else if n < 2^16 then ⟨0xda, 2, n⟩
  else ⟨0xdb, 4, n⟩

/-- The forms of arrays and objects: the short one from `base`, then two longer ones. -/
def containerForm (base two four n : ℕ) : Form :=
  if n < 2^4 then ⟨base + n, 0, 0⟩
  else if n < 2^16 then ⟨two, 2, n⟩
  else ⟨four, 4, n⟩

def Header.form : Header → Form
  | .null => ⟨0xc0, 0, 0⟩
  | .bool false => ⟨0xc2, 0, 0⟩
  | .bool true => ⟨0xc3, 0, 0⟩
  | .int i => if 0 ≤ i then unsignedForm i.toNat else negativeForm i
  | .str n => strForm n
  | .array n => containerForm 0x90 0xdc 0xdd n
  | .object n => containerForm 0x80 0xde 0xdf n

def Header.bytes (h : Header) : List UInt8 := h.form.bytes

/-- How many bytes of a number a first byte announces. -/
def widthOf (tag : ℕ) : ℕ :=
  if tag = 0xcc ∨ tag = 0xd0 ∨ tag = 0xd9 then 1
  else if tag = 0xcd ∨ tag = 0xd1 ∨ tag = 0xda ∨ tag = 0xdc ∨ tag = 0xde then 2
  else if tag = 0xce ∨ tag = 0xd2 ∨ tag = 0xdb ∨ tag = 0xdd ∨ tag = 0xdf then 4
  else if tag = 0xcf ∨ tag = 0xd3 then 8
  else 0

/-- The header that a first byte and the number after it stand for. -/
def headerOf (tag number : ℕ) : Header :=
  if tag < 0x80 then .int tag
  else if tag < 0x90 then .object (tag - 0x80)
  else if tag < 0xa0 then .array (tag - 0x90)
  else if tag < 0xc0 then .str (tag - 0xa0)
  else if tag = 0xc0 then .null
  else if tag < 0xc4 then .bool (tag = 0xc3)
  else if tag < 0xd0 then .int number
  else if tag < 0xd4 then .int (number - 256^widthOf tag)
  else if tag < 0xdc then .str number
  else if tag < 0xde then .array number
  else if tag < 0xe0 then .object number
  else .int (tag - 2^8)

/-- A form of the header `h`: its first byte announces the width, and it stands for `h`. -/
structure Form.Writes (f : Form) (h : Header) : Prop where
  tag_lt : f.tag < 256
  width_eq : f.width = widthOf f.tag
  number_lt : f.number < 256^f.width
  meaning : headerOf f.tag f.number = h

/-- No number follows the first byte. -/
lemma writes_short {t : ℕ} (ht : t < 0xc4 ∨ 0xe0 ≤ t ∧ t < 256) :
    (⟨t, 0, 0⟩ : Form).Writes (headerOf t 0) := by
  constructor
  · show t < 256
    omega
  · show 0 = widthOf t
    unfold widthOf
    split_ifs <;> omega
  · exact Nat.one_pos
  · rfl

lemma writes_long {t w n : ℕ} {h : Header} (ht : t < 256) (hw : w = widthOf t) (hn : n < 256^w)
    (hm : headerOf t n = h) : (⟨t, w, n⟩ : Form).Writes h :=
  ⟨ht, hw, hn, hm⟩

lemma headerOf_int {t : ℕ} (h : t < 0x80) : headerOf t 0 = .int t := by
  rw [headerOf, if_pos h]

lemma headerOf_object {n : ℕ} (h : n < 2^4) : headerOf (0x80 + n) 0 = .object n := by
  rw [headerOf, if_neg (by omega), if_pos (by omega), Nat.add_sub_cancel_left]

lemma headerOf_array {n : ℕ} (h : n < 2^4) : headerOf (0x90 + n) 0 = .array n := by
  rw [headerOf, if_neg (by omega), if_neg (by omega), if_pos (by omega), Nat.add_sub_cancel_left]

lemma headerOf_str {n : ℕ} (h : n < 2^5) : headerOf (0xa0 + n) 0 = .str n := by
  rw [headerOf, if_neg (by omega), if_neg (by omega), if_neg (by omega), if_pos (by omega),
    Nat.add_sub_cancel_left]

lemma headerOf_negative {t : ℕ} (h : 0xe0 ≤ t) : headerOf t 0 = .int (t - 2^8) := by
  rw [headerOf, if_neg (by omega), if_neg (by omega), if_neg (by omega), if_neg (by omega),
    if_neg (by omega), if_neg (by omega), if_neg (by omega), if_neg (by omega),
    if_neg (by omega), if_neg (by omega), if_neg (by omega)]

lemma unsignedForm_writes {n : ℕ} (h : n < 2^64) : (unsignedForm n).Writes (.int n) := by
  unfold unsignedForm
  split_ifs with h7 h8 h16 h32
  · have hw := writes_short (t := n) (by omega)
    rwa [headerOf_int h7] at hw
  · exact writes_long (by decide) rfl (by omega) rfl
  · exact writes_long (by decide) rfl (by omega) rfl
  · exact writes_long (by decide) rfl (by omega) rfl
  · exact writes_long (by decide) rfl (by omega) rfl

lemma negativeForm_writes {i : ℤ} (hi : i < 0) (hmin : -2^63 ≤ i) :
    (negativeForm i).Writes (.int i) := by
  unfold negativeForm
  split_ifs with h5 h7 h15 h31
  · have hw := writes_short (t := (i + 2^8).toNat) (by omega)
    rw [headerOf_negative (by omega)] at hw
    convert hw using 2
    omega
  · have hm : Header.int ((i + 2^8).toNat - 2^8) = .int i := by congr 1; omega
    exact writes_long (by decide) rfl (by omega) hm
  · have hm : Header.int ((i + 2^16).toNat - 2^16) = .int i := by congr 1; omega
    exact writes_long (by decide) rfl (by omega) hm
  · have hm : Header.int ((i + 2^32).toNat - 2^32) = .int i := by congr 1; omega
    exact writes_long (by decide) rfl (by omega) hm
  · have hm : Header.int ((i + 2^64).toNat - 2^64) = .int i := by congr 1; omega
    exact writes_long (by decide) rfl (by omega) hm

lemma strForm_writes {n : ℕ} (h : n < 2^32) : (strForm n).Writes (.str n) := by
  unfold strForm
  split_ifs with h5 h8 h16
  · have hw := writes_short (t := 0xa0 + n) (by omega)
    rwa [headerOf_str h5] at hw
  · exact writes_long (by decide) rfl (by omega) rfl
  · exact writes_long (by decide) rfl (by omega) rfl
  · exact writes_long (by decide) rfl (by omega) rfl

lemma containerForm_writes {base two four n : ℕ} {h : Header}
    (short : n < 2^4 → (⟨base + n, 0, 0⟩ : Form).Writes h)
    (mid : n < 2^16 → (⟨two, 2, n⟩ : Form).Writes h) (long : (⟨four, 4, n⟩ : Form).Writes h) :
    (containerForm base two four n).Writes h := by
  unfold containerForm
  split_ifs with h4 h16
  · exact short h4
  · exact mid h16
  · exact long

lemma Header.form_writes {h : Header} (fits : h.Fits) : h.form.Writes h := by
  cases h with
  | null => exact writes_short (t := 0xc0) (by decide)
  | bool b =>
    cases b with
    | false => exact writes_short (t := 0xc2) (by decide)
    | true => exact writes_short (t := 0xc3) (by decide)
  | int i =>
    obtain ⟨hmin, hmax⟩ := fits
    show (if 0 ≤ i then unsignedForm i.toNat else negativeForm i).Writes (.int i)
    split_ifs with h0
    · have hw := unsignedForm_writes (n := i.toNat) (by omega)
      rwa [Int.toNat_of_nonneg h0] at hw
    · exact negativeForm_writes (by omega) hmin
  | str n => exact strForm_writes fits
  | array n =>
    have hn : n < 2^32 := fits
    apply containerForm_writes
    · intro h4
      have hw := writes_short (t := 0x90 + n) (by omega)
      rwa [headerOf_array h4] at hw
    · intro h16
      exact writes_long (by decide) rfl (by omega) rfl
    · exact writes_long (by decide) rfl (by omega) rfl
  | object n =>
    have hn : n < 2^32 := fits
    apply containerForm_writes
    · intro h4
      have hw := writes_short (t := 0x80 + n) (by omega)
      rwa [headerOf_object h4] at hw
    · intro h16
      exact writes_long (by decide) rfl (by omega) rfl
    · exact writes_long (by decide) rfl (by omega) rfl

/-- The first byte fixes the width, and with the number after it the header. -/
theorem headers_selfDelimiting : SelfDelimiting Header.Fits Header.bytes := by
  intro h h' fits fits' r r' he
  obtain ⟨htag, hwidth, hnumber, hmeaning⟩ := Header.form_writes fits
  obtain ⟨htag', hwidth', hnumber', hmeaning'⟩ := Header.form_writes fits'
  unfold Header.bytes Form.bytes at he
  rw [List.cons_append, List.cons_append, List.cons.injEq] at he
  obtain ⟨hfirst, hrest⟩ := he
  have ht : h.form.tag = h'.form.tag := byte_inj htag htag' hfirst
  have hw : h'.form.width = h.form.width := by rw [hwidth, hwidth', ht]
  rw [hw] at hrest hnumber'
  obtain ⟨hn, hr⟩ := bigEndian_selfDelimiting _ hnumber hnumber' hrest
  refine ⟨?_, hr⟩
  rw [← hmeaning, ← hmeaning', ht, hn]

def encodeStr (s : List UInt8) : List UInt8 := (Header.str s.length).bytes ++ s

mutual

def encode : Value → List UInt8
  | .null => Header.null.bytes
  | .bool b => (Header.bool b).bytes
  | .int i => (Header.int i).bytes
  | .str s => encodeStr s
  | .array items => (Header.array items.length).bytes ++ encodeItems items
  | .object members => (Header.object members.length).bytes ++ encodeMembers members

def encodeItems : List Value → List UInt8
  | [] => []
  | v :: vs => encode v ++ encodeItems vs

def encodeMembers : List (List UInt8 × Value) → List UInt8
  | [] => []
  | (key, v) :: ms => encodeStr key ++ encode v ++ encodeMembers ms

end

mutual

/-- Integers of at most 64 bits, lengths below `2^32`, also inside. -/
def Value.Valid : Value → Prop
  | .null | .bool _ => True
  | .int i => (Header.int i).Fits
  | .str s => (Header.str s.length).Fits
  | .array items => (Header.array items.length).Fits ∧ ValidItems items
  | .object members => (Header.object members.length).Fits ∧ ValidMembers members

def ValidItems : List Value → Prop
  | [] => True
  | v :: vs => v.Valid ∧ ValidItems vs

def ValidMembers : List (List UInt8 × Value) → Prop
  | [] => True
  | (key, v) :: ms => (Header.str key.length).Fits ∧ v.Valid ∧ ValidMembers ms

end

def ValidStr (s : List UInt8) : Prop := (Header.str s.length).Fits

lemma encodeStr_selfDelimiting : SelfDelimiting ValidStr encodeStr := by
  intro s s' hs hs' r r' he
  unfold encodeStr at he
  rw [List.append_assoc, List.append_assoc] at he
  obtain ⟨hheader, hrest⟩ := headers_selfDelimiting hs hs' he
  exact List.append_inj hrest (Header.str.inj hheader)

def Value.header : Value → Header
  | .null => .null
  | .bool b => .bool b
  | .int i => .int i
  | .str s => .str s.length
  | .array items => .array items.length
  | .object members => .object members.length

/-- What follows the header. -/
def Value.contents : Value → List UInt8
  | .null | .bool _ | .int _ => []
  | .str s => s
  | .array items => encodeItems items
  | .object members => encodeMembers members

lemma encode_eq (v : Value) : encode v = v.header.bytes ++ v.contents := by
  cases v with
  | null | bool _ | int _ =>
    rw [encode, Value.contents, List.append_nil]
    rfl
  | str _ | array _ | object _ =>
    rw [encode, Value.contents]
    rfl

lemma Value.Valid.header {v : Value} (h : v.Valid) : v.header.Fits := by
  cases v with
  | null | bool _ => trivial
  | int _ | str _ =>
    rw [Value.Valid] at h
    exact h
  | array _ | object _ =>
    rw [Value.Valid] at h
    exact h.1

/-- Equal encodings have equal headers, and equal bytes after them. -/
lemma split_header {v w : Value} (hv : v.Valid) (hw : w.Valid) {r r' : List UInt8}
    (h : encode v ++ r = encode w ++ r') :
    v.header = w.header ∧ v.contents ++ r = w.contents ++ r' := by
  rw [encode_eq, encode_eq, List.append_assoc, List.append_assoc] at h
  exact headers_selfDelimiting hv.header hw.header h

mutual

theorem encode_append_inj : ∀ {v w : Value} {r r' : List UInt8}, v.Valid → w.Valid →
    encode v ++ r = encode w ++ r' → v = w ∧ r = r'
  | .null, w, r, r', hv, hw, h => by
    obtain ⟨hheader, hrest⟩ := split_header hv hw h
    cases w <;> cases hheader
    exact ⟨rfl, hrest⟩
  | .bool b, w, r, r', hv, hw, h => by
    obtain ⟨hheader, hrest⟩ := split_header hv hw h
    cases w <;> cases hheader
    exact ⟨rfl, hrest⟩
  | .int i, w, r, r', hv, hw, h => by
    obtain ⟨hheader, hrest⟩ := split_header hv hw h
    cases w <;> cases hheader
    exact ⟨rfl, hrest⟩
  | .str s, w, r, r', hv, hw, h => by
    obtain ⟨hheader, hrest⟩ := split_header hv hw h
    cases w with
    | str s' =>
      obtain ⟨hs, hr⟩ := List.append_inj hrest (Header.str.inj hheader)
      have hs' : s = s' := hs
      exact ⟨by rw [hs'], hr⟩
    | _ => cases hheader
  | .array items, w, r, r', hv, hw, h => by
    obtain ⟨hheader, hrest⟩ := split_header hv hw h
    cases w with
    | array items' =>
      rw [Value.Valid] at hv hw
      obtain ⟨hitems, hr⟩ := encodeItems_append_inj hv.2 hw.2 (Header.array.inj hheader) hrest
      exact ⟨by rw [hitems], hr⟩
    | _ => cases hheader
  | .object members, w, r, r', hv, hw, h => by
    obtain ⟨hheader, hrest⟩ := split_header hv hw h
    cases w with
    | object members' =>
      rw [Value.Valid] at hv hw
      obtain ⟨hmembers, hr⟩ := encodeMembers_append_inj hv.2 hw.2 (Header.object.inj hheader) hrest
      exact ⟨by rw [hmembers], hr⟩
    | _ => cases hheader

theorem encodeItems_append_inj : ∀ {vs ws : List Value} {r r' : List UInt8}, ValidItems vs →
    ValidItems ws → vs.length = ws.length → encodeItems vs ++ r = encodeItems ws ++ r' →
    vs = ws ∧ r = r'
  | [], [], r, r', _, _, _, h => ⟨rfl, h⟩
  | v :: vs, w :: ws, r, r', hvs, hws, hlen, h => by
    rw [ValidItems] at hvs hws
    rw [encodeItems, encodeItems, List.append_assoc, List.append_assoc] at h
    obtain ⟨hv, hrest⟩ := encode_append_inj hvs.1 hws.1 h
    obtain ⟨htail, hr⟩ := encodeItems_append_inj hvs.2 hws.2 (Nat.succ.inj hlen) hrest
    exact ⟨by rw [hv, htail], hr⟩

theorem encodeMembers_append_inj : ∀ {ms ns : List (List UInt8 × Value)} {r r' : List UInt8},
    ValidMembers ms → ValidMembers ns → ms.length = ns.length →
    encodeMembers ms ++ r = encodeMembers ns ++ r' → ms = ns ∧ r = r'
  | [], [], r, r', _, _, _, h => ⟨rfl, h⟩
  | (key, v) :: ms, (key', w) :: ns, r, r', hms, hns, hlen, h => by
    rw [ValidMembers] at hms hns
    rw [encodeMembers, encodeMembers, List.append_assoc, List.append_assoc, List.append_assoc,
      List.append_assoc] at h
    obtain ⟨hkey, hafter⟩ := encodeStr_selfDelimiting hms.1 hns.1 h
    obtain ⟨hv, hrest⟩ := encode_append_inj hms.2.1 hns.2.1 hafter
    obtain ⟨htail, hr⟩ := encodeMembers_append_inj hms.2.2 hns.2.2 (Nat.succ.inj hlen) hrest
    exact ⟨by rw [hkey, hv, htail], hr⟩

end

/-- MessagePack tells where a value ends and what it is. -/
theorem encode_selfDelimiting : SelfDelimiting Value.Valid encode := by
  intro v w hv hw r r' h
  exact encode_append_inj hv hw h

end HyperliquidApi.MsgPack
