import HyperliquidApi.GatewayRuns
import HyperliquidApi.Instruments

/-!
# Two decoders of a fill

A fill arrives on the stream, and after a cancel that found its order gone it is also fetched from
the REST interface. The stream's handler reads the object itself; the REST client decodes whole
replies into records first.
-/
namespace HyperliquidApi.FillDecoders
open GatewayRuns

/-- All fields of the record. -/
structure RestFill extends UserFill where
  coin : String
  time : ℤ
  oid : ℕ
  fee : ℚ

namespace RestFill

def empty : RestFill := ⟨⟨0, 0, 0, "", false⟩, "", 0, 0, 0⟩

/-- `UserFill::fromJson` -/
def fromJson (r : JsonReaders) (fill : RestFill) (json : Json) : Except JsonError RestFill := do
  let coin ← r.readValue Json.asString json "coin" fill.coin
  let px ← r.readStringAsDouble json "px" fill.px
  let sz ← r.readStringAsDouble json "sz" fill.sz
  let time ← r.readValue Json.asInt64 json "time" fill.time
  let oid ← r.readValue Json.asUInt64 json "oid" fill.oid
  let tid ← r.readValue Json.asUInt64 json "tid" fill.tid
  let cloid ← r.readValue Json.asString json "cloid" fill.cloid
  let crossed ← r.readValue Json.asBool json "crossed" fill.crossed
  let fee ← r.readStringAsDouble json "fee" fill.fee
  return ⟨⟨px, sz, tid, cloid, crossed⟩, coin, time, oid, fee⟩

end RestFill

section
variable (r : JsonReaders)

/-- A reply that is no array has no fills. -/
def getUserFills (reply : Except RestError Json) : Except RestError (List RestFill) := do
  match ← reply with
  | .array elements => (elements.mapM (RestFill.empty.fromJson r)).mapError .json
  | _ => return []

/-- What one fill of the reply makes of the callback. -/
def reemit (p : Gateway) (clientOrderId symbol cloid : String) (fill : RestFill) : Gateway :=
  if fill.cloid ≠ cloid ∨ fill.tid = 0 then p
  else p.deliver (.fill (System.reemission clientOrderId symbol fill.toUserFill))

/-- Errors of the request and of its decoding are logged and dropped. -/
def reconcileMissedFills (p : Gateway) (reply : Except RestError Json)
    (clientOrderId symbol : String) : Gateway :=
  if ¬ p.fillCB then p
  else
    let cloid := p.orders.cloidFor clientOrderId
    if cloid = "" then p
    else
      match getUserFills r reply with
      | .error _ => p
      | .ok fills => fills.foldl (fun p fill => reemit p clientOrderId symbol cloid fill) p

end

/-- Steps of this thread's reconciliation with no other thread in between. -/
def Alone (lib : Library) (t : ℕ) : System → System → Prop :=
  Relation.ReflTransGen fun s s' =>
    ∃ a, (a = .reconcile t ∨ a = .fetched t ∨ a = .reemit t) ∧ step lib s a = some s'

lemma alone_reemit (lib : Library) {t : ℕ} {clientOrderId symbol cloid found : String}
    {reply : List UserFill} (fills : List RestFill) (s : System)
    (h : s.calls t = .reemitting clientOrderId symbol cloid found reply
      (fills.map RestFill.toUserFill)) :
    ∃ s', Alone lib t s s' ∧ s'.calls t = .idle ∧
      s'.gateway =
        fills.foldl (fun p fill => reemit p clientOrderId symbol found fill) s.gateway := by
  induction fills generalizing s with
  | nil =>
    have hstep : step lib s (.reemit t) =
        some ((s.setCall t .idle).observe (.returned clientOrderId cloid reply)) := by
      simp only [step, h, List.map_nil]
    refine ⟨_, .single ⟨.reemit t, .inr (.inr rfl), hstep⟩, ?_, rfl⟩
    simp [System.observe, System.setCall]
  | cons fill fills ih =>
    rw [List.map_cons] at h
    let next : System :=
      { s.setCall t (.reemitting clientOrderId symbol cloid found reply
          (fills.map RestFill.toUserFill)) with
        gateway := reemit s.gateway clientOrderId symbol found fill }
    have hstep : step lib s (.reemit t) = some next := by
      simp only [step, h, next, reemit]
      split_ifs <;> rfl
    obtain ⟨s', halone, hidle, hgateway⟩ := ih next (by simp [next, System.setCall])
    exact ⟨s', .head ⟨.reemit t, .inr (.inr rfl), hstep⟩ halone, hidle, hgateway⟩

/-- Uninterrupted, the steps after a cancel that found its order gone are `reconcileMissedFills`
on the fills that the venue has. -/
theorem alone_reconcile (lib : Library) (r : JsonReaders) {t : ℕ} {s : System}
    {clientOrderId symbol cloid : String} (h : s.calls t = .gone clientOrderId symbol cloid)
    {reply : Except RestError Json} {fills : List RestFill}
    (hreply : getUserFills r reply = .ok fills)
    (hvenue : s.venueFills = fills.map RestFill.toUserFill) :
    ∃ s', Alone lib t s s' ∧ s'.calls t = .idle ∧
      s'.gateway = reconcileMissedFills r s.gateway reply clientOrderId symbol := by
  unfold reconcileMissedFills
  dsimp only
  by_cases hlookup : s.gateway.fillCB = true ∧ s.gateway.orders.cloidFor clientOrderId ≠ ""
  · obtain ⟨hcb, hfound⟩ := hlookup
    let fetching : System := s.setCall t
      (.fetching clientOrderId symbol cloid (s.gateway.orders.cloidFor clientOrderId))
    have hreconcile : step lib s (.reconcile t) = some fetching := by
      simp [step, h, hcb, hfound, fetching]
    let fetched : System := fetching.setCall t (.reemitting clientOrderId symbol cloid
      (s.gateway.orders.cloidFor clientOrderId) s.venueFills s.venueFills)
    have hfetched : step lib fetching (.fetched t) = some fetched := by
      simp [step, fetching, fetched, System.setCall]
    have hcall : fetched.calls t = .reemitting clientOrderId symbol cloid
        (s.gateway.orders.cloidFor clientOrderId) s.venueFills (fills.map RestFill.toUserFill) := by
      simp [fetched, System.setCall, hvenue]
    obtain ⟨s', halone, hidle, hgateway⟩ := alone_reemit lib fills fetched hcall
    refine ⟨s', .head ⟨_, .inl rfl, hreconcile⟩ (.head ⟨_, .inr (.inl rfl), hfetched⟩ halone), hidle, ?_⟩
    simp only [hcb, not_true_eq_false, if_false, hfound, hreply]
    exact hgateway
  · have hstep : step lib s (.reconcile t) =
        some ((s.setCall t .idle).observe (.returned clientOrderId cloid s.venueFills)) := by
      simp only [step, h, if_neg hlookup]
    refine ⟨_, .single ⟨.reconcile t, .inl rfl, hstep⟩, ?_, ?_⟩
    · simp [System.observe, System.setCall]
    · rw [not_and_or, not_not] at hlookup
      rcases hlookup with hcb | hfound
      · simp [System.observe, System.setCall, hcb]
      · simp [System.observe, System.setCall, hfound]

/-- What `emitFill` calls the callback with. -/
def emitted (lib : Library) (p : Gateway) (fillJson : Json) : Option FillEvent :=
  if p.fillCB then
    match readFill lib p.orders fillJson with
    | .error _ => none
    | .ok fill => fill
  else none

/-- What one fill of the reply is reported as. -/
def reported (clientOrderId symbol cloid : String) (fill : RestFill) : Option FillEvent :=
  if fill.cloid ≠ cloid ∨ fill.tid = 0 then none
  else some (System.reemission clientOrderId symbol fill.toUserFill)

/-- What `reconcileMissedFills` calls the callback with, object by object of the reply. -/
def reemitted (r : JsonReaders) (p : Gateway) (entries : List Json) (clientOrderId symbol : String) :
    List (Option FillEvent) :=
  let cloid := p.orders.cloidFor clientOrderId
  if p.fillCB ∧ cloid ≠ "" then
    match getUserFills r (.ok (.array entries)) with
    | .error _ => List.replicate entries.length none
    | .ok fills => fills.map (reported clientOrderId symbol cloid)
  else List.replicate entries.length none

def handOver (p : Gateway) (fill : Option FillEvent) : Gateway :=
  fill.elim p fun fill => p.deliver (.fill fill)

lemma emitFill_emitted (lib : Library) (p : Gateway) (fillJson : Json) :
    ((∃ e, p.emitFill lib fillJson = .error e) ∧ emitted lib p fillJson = none) ∨
      p.emitFill lib fillJson = .ok (handOver p (emitted lib p fillJson)) := by
  unfold Gateway.emitFill emitted
  cases p.fillCB with
  | false => exact .inr rfl
  | true =>
    cases readFill lib p.orders fillJson with
    | error e => exact .inl ⟨⟨e, rfl⟩, rfl⟩
    | ok read =>
      cases read with
      | none => exact .inr rfl
      | some fill => exact .inr rfl

lemma reemit_eq (p : Gateway) (clientOrderId symbol cloid : String) (fill : RestFill) :
    reemit p clientOrderId symbol cloid fill =
      handOver p (reported clientOrderId symbol cloid fill) := by
  unfold reemit reported
  split_ifs
  · rfl
  · rfl

lemma foldl_handOver_none (p : Gateway) (n : ℕ) :
    (List.replicate n none).foldl handOver p = p := by
  induction n with
  | zero => rfl
  | succ n ih => exact ih

/-- The calls for the objects of a reply are made one after the other. -/
theorem reconcileMissedFills_reemitted (r : JsonReaders) (p : Gateway) (entries : List Json)
    (clientOrderId symbol : String) :
    reconcileMissedFills r p (.ok (.array entries)) clientOrderId symbol =
      (reemitted r p entries clientOrderId symbol).foldl handOver p := by
  unfold reconcileMissedFills reemitted
  dsimp only
  cases p.fillCB with
  | false => simp [foldl_handOver_none]
  | true =>
    by_cases hcloid : p.orders.cloidFor clientOrderId = ""
    · simp [hcloid, foldl_handOver_none]
    · cases getUserFills r (.ok (.array entries)) with
      | error e => simp [hcloid, foldl_handOver_none]
      | ok fills => simp [hcloid, List.foldl_map, reemit_eq]

/-- The string of the member as a number, or the default; empty where `stod` throws. -/
def parsed (stod : String → Option ℚ) (json : Json) (key : String) (default : ℚ) : Option ℚ :=
  match (json.find key).bind Json.asString with
  | none => some default
  | some s => stod s

/-- What is known of the readers: well-typed members are read, absent ones keep the default, and
strings are parsed as `stod` parses them. -/
structure Documented (stod : String → Option ℚ) (r : JsonReaders) : Prop where
  readValue : ∀ {α : Type} {read : Json → Option α} {json : Json} {key : String} (default : α),
    json.Readable read key →
      r.readValue read json key default = .ok (((json.find key).bind read).getD default)
  readStringAsDouble : ∀ {json : Json} {key : String} (default : ℚ),
    json.Readable Json.asString key →
      (r.readStringAsDouble json key default).toOption = parsed stod json key default

/-- The members of a fill that are present have their types. -/
structure WellTyped (fillJson : Json) : Prop where
  coin : fillJson.Readable Json.asString "coin"
  px : fillJson.Readable Json.asString "px"
  sz : fillJson.Readable Json.asString "sz"
  time : fillJson.Readable Json.asInt64 "time"
  oid : fillJson.Readable Json.asUInt64 "oid"
  tid : fillJson.Readable Json.asUInt64 "tid"
  cloid : fillJson.Readable Json.asString "cloid"
  crossed : fillJson.Readable Json.asBool "crossed"
  fee : fillJson.Readable Json.asString "fee"

/-- The numbers of the fill parse. -/
def Parsable (stod : String → Option ℚ) (fillJson : Json) : Prop :=
  ∀ key ∈ ["px", "sz", "fee"], parsed stod fillJson key 0 ≠ none

def tidOf (fillJson : Json) : ℕ := ((fillJson.find "tid").bind Json.asUInt64).getD 0

/-- `cancel` finds this order under its client id, and its symbol is the one it was submitted with. -/
structure Cancellable (m : OrderMaps) (clientOrderId symbol cloid : String) : Prop where
  nonempty : cloid ≠ ""
  forward : m.clientToCloid clientOrderId = some cloid
  backward : ∃ origSz, m.byCloid cloid = some ⟨clientOrderId, symbol, origSz⟩

/-- What a fill of this order is, however it is read. -/
def eventOf (stod : String → Option ℚ) (clientOrderId symbol : String) (fillJson : Json) :
    FillEvent where
  clientOrderId
  symbol
  fillId := toString (tidOf fillJson)
  qty := (parsed stod fillJson "sz" 0).getD 0
  price := (parsed stod fillJson "px" 0).getD 0
  isMaker := !((fillJson.find "crossed").bind Json.asBool).getD false

lemma readNum_parsed (stod : String → Option ℚ) {json : Json} {key : String}
    (h : json.Readable Json.asString key) :
    json.readNum stod key = (parsed stod json key 0).getD 0 := by
  unfold Json.readNum parsed
  cases hfind : json.find key with
  | none => rfl
  | some member =>
    obtain ⟨s, hs⟩ := Option.isSome_iff_exists.mp (h.2 member hfind)
    rw [Json.asString_eq hs]
    rfl

/-- What the record of a fill holds. -/
def decoded (stod : String → Option ℚ) (fillJson : Json) : RestFill where
  coin := ((fillJson.find "coin").bind Json.asString).getD ""
  px := (parsed stod fillJson "px" 0).getD 0
  sz := (parsed stod fillJson "sz" 0).getD 0
  time := ((fillJson.find "time").bind Json.asInt64).getD 0
  oid := ((fillJson.find "oid").bind Json.asUInt64).getD 0
  tid := tidOf fillJson
  cloid := ((fillJson.find "cloid").bind Json.asString).getD ""
  crossed := ((fillJson.find "crossed").bind Json.asBool).getD false
  fee := (parsed stod fillJson "fee" 0).getD 0

section
variable {ε α β : Type}

lemma toOption_some {x : Except ε α} {a : α} (h : x.toOption = some a) : x = .ok a := by
  cases x with
  | error e => cases h
  | ok b => rw [Option.some.inj h]

lemma mapM_ok {f : α → Except ε β} {g : α → β} {as : List α} (h : ∀ a ∈ as, f a = .ok (g a)) :
    as.mapM f = .ok (as.map g) := by
  induction as with
  | nil => rfl
  | cons a as ih =>
    rw [List.mapM_cons, h a (by simp), ih fun b hb => h b (by simp [hb])]
    rfl

/-- One error is enough. -/
lemma mapM_error {f : α → Except ε β} {as : List α} {a : α} (ha : a ∈ as)
    (h : ∃ e, f a = .error e) : ∃ e, as.mapM f = .error e := by
  induction as with
  | nil => cases ha
  | cons b as ih =>
    rw [List.mapM_cons]
    cases hb : f b with
    | error e => exact ⟨e, rfl⟩
    | ok y =>
      rcases List.mem_cons.mp ha with rfl | ha
      · obtain ⟨e, he⟩ := h
        rw [hb] at he
        cases he
      · obtain ⟨e, he⟩ := ih ha
        exact ⟨e, by rw [he]; rfl⟩

end

section
variable {stod : String → Option ℚ} {r : JsonReaders} (hr : Documented stod r)
include hr

lemma fromJson_parsable {fillJson : Json} (ht : WellTyped fillJson)
    (hp : Parsable stod fillJson) :
    RestFill.empty.fromJson r fillJson = .ok (decoded stod fillJson) := by
  have hnumber : ∀ key ∈ ["px", "sz", "fee"], fillJson.Readable Json.asString key →
      r.readStringAsDouble fillJson key 0 = .ok ((parsed stod fillJson key 0).getD 0) := by
    intro key hkey hread
    obtain ⟨q, hq⟩ := Option.ne_none_iff_exists'.mp (hp key hkey)
    rw [toOption_some ((hr.readStringAsDouble 0 hread).trans hq), hq, Option.getD_some]
  have hpx := hnumber "px" (by simp) ht.px
  have hsz := hnumber "sz" (by simp) ht.sz
  have hfee := hnumber "fee" (by simp) ht.fee
  simp [RestFill.fromJson, RestFill.empty, hr.readValue, ht.coin, ht.time, ht.oid, ht.tid, ht.cloid,
    ht.crossed, hpx, hsz, hfee, bind, Except.bind, pure, Except.pure, decoded, tidOf]

/-- A number that does not parse, the fee as well, ends the decoding. -/
lemma fromJson_unparsable {fillJson : Json} (ht : WellTyped fillJson)
    (hp : ¬ Parsable stod fillJson) : ∃ e, RestFill.empty.fromJson r fillJson = .error e := by
  by_contra hok
  obtain ⟨fill, hfill⟩ : ∃ fill, RestFill.empty.fromJson r fillJson = .ok fill := by
    cases hread : RestFill.empty.fromJson r fillJson with
    | error e => exact absurd ⟨e, hread⟩ hok
    | ok fill => exact ⟨fill, rfl⟩
  have hparsed : ∀ {key : String} {q : ℚ}, fillJson.Readable Json.asString key →
      r.readStringAsDouble fillJson key 0 = .ok q → parsed stod fillJson key 0 ≠ none := by
    intro key q hread hq
    rw [← hr.readStringAsDouble 0 hread, hq]
    exact Option.some_ne_none q
  obtain ⟨coin, _, hfill⟩ := bind_ok hfill
  obtain ⟨px, hpx, hfill⟩ := bind_ok hfill
  obtain ⟨sz, hsz, hfill⟩ := bind_ok hfill
  obtain ⟨time, _, hfill⟩ := bind_ok hfill
  obtain ⟨oid, _, hfill⟩ := bind_ok hfill
  obtain ⟨tid, _, hfill⟩ := bind_ok hfill
  obtain ⟨cloid, _, hfill⟩ := bind_ok hfill
  obtain ⟨crossed, _, hfill⟩ := bind_ok hfill
  obtain ⟨fee, hfee, _⟩ := bind_ok hfill
  apply hp
  intro key hkey
  simp only [List.mem_cons, List.not_mem_nil, or_false] at hkey
  rcases hkey with rfl | rfl | rfl
  · exact hparsed ht.px hpx
  · exact hparsed ht.sz hsz
  · exact hparsed ht.fee hfee

/-- Replies are decoded whole or not at all. -/
lemma getUserFills_ok {entries : List Json} (ht : ∀ entry ∈ entries, WellTyped entry)
    (hp : ∀ entry ∈ entries, Parsable stod entry) :
    getUserFills r (.ok (.array entries)) = .ok (entries.map (decoded stod)) := by
  have hmap := mapM_ok fun entry hentry => fromJson_parsable hr (ht entry hentry) (hp entry hentry)
  simp only [getUserFills, bind, Except.bind, hmap]
  rfl

lemma getUserFills_error {entries : List Json} (ht : ∀ entry ∈ entries, WellTyped entry)
    {entry : Json} (hentry : entry ∈ entries) (hp : ¬ Parsable stod entry) :
    ∃ e, getUserFills r (.ok (.array entries)) = .error e := by
  obtain ⟨e, he⟩ := mapM_error hentry (fromJson_unparsable hr (ht entry hentry) hp)
  exact ⟨.json e, by simp only [getUserFills, bind, Except.bind, he]; rfl⟩

end

section
variable {lib : Library} {r : JsonReaders} {p : Gateway}
  {clientOrderId symbol cloid : String} (h : Cancellable p.orders clientOrderId symbol cloid)
include h

lemma cloidFor_of_cancellable : p.orders.cloidFor clientOrderId = cloid := by
  rw [OrderMaps.cloidFor, h.forward, Option.getD_some]

/-- The stream reports every fill of the order. -/
lemma emitted_of_wellTyped {fillJson : Json} (hcloid : fillJson.find "cloid" = some (.string cloid))
    (ht : WellTyped fillJson) :
    emitted lib p fillJson =
      if p.fillCB then some (eventOf lib.stod clientOrderId symbol fillJson) else none := by
  obtain ⟨origSz, hrec⟩ := h.backward
  have hvalue : fillJson.value Json.asString "cloid" "" = .ok cloid :=
    Json.value_of_find (a := cloid) hcloid rfl ""
  have hrecord : p.orders.recForCloid cloid = some ⟨clientOrderId, symbol, origSz⟩ := hrec
  have hread : readFill lib p.orders fillJson =
      .ok (some (eventOf lib.stod clientOrderId symbol fillJson)) := by
    simp [readFill, hvalue, h.nonempty, hrecord, fillEvent, lib.value_asULL ht.tid,
      Json.value_of_readable ht.crossed, readNum_parsed lib.stod ht.sz, readNum_parsed lib.stod ht.px, bind,
      Except.bind, pure, Except.pure, eventOf, tidOf]
  rw [emitted, hread]

omit h in
lemma reported_decoded {fillJson : Json} (hcloid : fillJson.find "cloid" = some (.string cloid)) :
    reported clientOrderId symbol cloid (decoded lib.stod fillJson) =
      if tidOf fillJson = 0 then none else some (eventOf lib.stod clientOrderId symbol fillJson) := by
  have hsame : (decoded lib.stod fillJson).cloid = cloid := by
    simp [decoded, hcloid, Json.asString]
  unfold reported
  simp only [hsame, ne_eq, not_true_eq_false, false_or]
  rfl

/-- Both paths report the fill alike, or neither reports it, exactly when it has a trade id and
every number of the reply parses. -/
theorem fills_agree_iff (hr : Documented lib.stod r) {entries : List Json}
    (ht : ∀ entry ∈ entries, WellTyped entry) {i : ℕ} {fillJson : Json}
    (hi : entries[i]? = some fillJson) (hcloid : fillJson.find "cloid" = some (.string cloid)) :
    (reemitted r p entries clientOrderId symbol)[i]? = some (emitted lib p fillJson) ↔
      (p.fillCB = true → tidOf fillJson ≠ 0 ∧ ∀ entry ∈ entries, Parsable lib.stod entry) := by
  have hlt : i < entries.length := (List.getElem?_eq_some_iff.mp hi).1
  rw [emitted_of_wellTyped h hcloid (ht fillJson (List.mem_of_getElem? hi))]
  unfold reemitted
  dsimp only
  rw [cloidFor_of_cancellable h]
  cases p.fillCB with
  | false =>
    refine iff_of_true ?_ (by simp)
    simp [hlt]
  | true =>
    simp only [true_and, ne_eq, h.nonempty, not_false_eq_true, if_true, forall_const]
    by_cases hparse : ∀ entry ∈ entries, Parsable lib.stod entry
    · rw [getUserFills_ok hr ht hparse]
      simp only [List.map_map, List.getElem?_map, hi, Option.map_some, Function.comp_apply,
        reported_decoded hcloid]
      by_cases htid : tidOf fillJson = 0
      · simp [htid]
      · simp only [htid, if_false, not_false_eq_true, true_and]
        exact iff_of_true trivial hparse
    · refine iff_of_false ?_ fun hboth => hparse hboth.2
      push Not at hparse
      obtain ⟨entry, hentry, hbad⟩ := hparse
      obtain ⟨e, he⟩ := getUserFills_error hr ht hentry hbad
      rw [he]
      simp [hlt]

end

/-! Readers that behave as they are documented. -/

def readers (stod : String → Option ℚ) : JsonReaders where
  readValue read json key default := json.value read key default
  readStringAsDouble json key default :=
    match parsed stod json key default with
    | none => .error .typeMismatch
    | some q => .ok q

lemma readers_documented (stod : String → Option ℚ) : Documented stod (readers stod) where
  readValue default h := Json.value_of_readable h default
  readStringAsDouble {json key} default _ := by
    show (match parsed stod json key default with
      | none => Except.error JsonError.typeMismatch
      | some q => Except.ok q).toOption = _
    cases parsed stod json key default <;> rfl

def decimals : Library :=
  ⟨fun s => DecimalText.decimalValue s.toList, Json.asUInt64, Json.asUInt64_number⟩

lemma ownFill_wellTyped (tid : ℕ) : WellTyped (ownFill tid) := by
  have hobject : (ownFill tid).isObject = true := rfl
  constructor <;> refine ⟨hobject, ?_⟩ <;> rintro member ⟨⟩ <;> rfl

lemma ownFill_parsable (tid : ℕ) : Parsable decimals.stod (ownFill tid) := by
  intro key hkey
  simp only [List.mem_cons, List.not_mem_nil, or_false] at hkey
  rcases hkey with rfl | rfl | rfl
  · exact (by decide +kernel : decimals.stod "100" ≠ none)
  · exact (by decide +kernel : decimals.stod "1" ≠ none)
  · exact Option.some_ne_none 0

lemma oneOrder_cancellable : Cancellable oneOrder.orders "a" "BTC" ownCloid where
  nonempty := formatCloid_ne_empty 1000 1
  forward := rfl
  backward := ⟨1, rfl⟩

/-- A fill with a trade id, alone in its reply. -/
theorem fills_agree_iff_with_id :
    (reemitted (readers decimals.stod) oneOrder [ownFill 7] "a" "BTC")[0]? =
      some (emitted decimals oneOrder (ownFill 7)) := by
  have htyped : ∀ entry ∈ [ownFill 7], WellTyped entry := by
    intro entry hentry
    rw [List.mem_singleton.mp hentry]
    exact ownFill_wellTyped 7
  have hparse : ∀ entry ∈ [ownFill 7], Parsable decimals.stod entry := by
    intro entry hentry
    rw [List.mem_singleton.mp hentry]
    exact ownFill_parsable 7
  exact (fills_agree_iff oneOrder_cancellable (readers_documented decimals.stod) htyped rfl rfl).mpr
    fun _ => ⟨by decide, hparse⟩

/-- Without a trade id the stream reports the fill under the id "0", and the other path skips it. -/
theorem fill_without_id_differs :
    emitted decimals oneOrder (ownFill 0) = some ⟨"a", "BTC", "0", 1, 100, false⟩ ∧
      reemitted (readers decimals.stod) oneOrder [ownFill 0] "a" "BTC" = [none] ∧
      (reemitted (readers decimals.stod) oneOrder [ownFill 0] "a" "BTC")[0]? ≠
        some (emitted decimals oneOrder (ownFill 0)) := by
  have hstream : emitted decimals oneOrder (ownFill 0) = some ⟨"a", "BTC", "0", 1, 100, false⟩ := by
    decide +kernel
  have hrest : reemitted (readers decimals.stod) oneOrder [ownFill 0] "a" "BTC" = [none] := by
    decide +kernel
  refine ⟨hstream, hrest, ?_⟩
  rw [hstream, hrest]
  simp

end HyperliquidApi.FillDecoders
