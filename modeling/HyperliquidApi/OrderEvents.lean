import HyperliquidApi.Json
import HyperliquidApi.OrderMaps

/-!
# Order and fill events

The handlers that run on the stream's thread. Every field of an entry is read before the
entry has an effect, so an entry that throws leaves the gateway as it was; the entries
handled before it in the same message have had theirs. Prices and sizes are rationals.
-/
namespace HyperliquidApi

inductive OrderState
  | accepted
  | filled
  | cancelled
  | rejected
  deriving DecidableEq

inductive RejectKind
  | benignPostOnlyCross
  | minNotional
  | throttled
  | positionClosed
  | permanent
  | hard
  deriving DecidableEq

/-- `rejectKind` is set by rejected orders only. -/
structure OrderUpdate where
  clientOrderId : String
  symbol : String
  price : ℚ
  cumFilledQty : ℚ
  reason : String
  state : OrderState
  rejectKind : Option RejectKind
  deriving DecidableEq

structure FillEvent where
  clientOrderId : String
  symbol : String
  fillId : String
  qty : ℚ
  price : ℚ
  isMaker : Bool
  deriving DecidableEq

structure Quote where
  bid : ℚ
  ask : ℚ
  deriving DecidableEq

inductive Event
  | orderUpdate (update : OrderUpdate)
  | fill (fill : FillEvent)
  | quote (coin : String) (quote : Quote)
  deriving DecidableEq

/-- What the handlers read and write. A callback is a flag that says whether it is set, and
`delivered` is what the callbacks have received, the oldest event first. -/
structure Gateway where
  orders : OrderMaps
  quoteCache : String → Option Quote
  orderUpdateCB : Bool
  fillCB : Bool
  quoteCB : Bool
  delivered : List Event

/-- An order update that is about to be reported. -/
structure OrderReport where
  cloid : String
  update : OrderUpdate
  terminal : Bool

/-- The state a status stands for, and whether it ends the order. -/
def orderStateOf (status : String) : Option (OrderState × Bool) :=
  if status = "open" then some (.accepted, false)
  else if status = "filled" then some (.filled, true)
  else if status = "canceled" ∨ status = "marginCanceled" ∨ status = "liquidatedCanceled" ∨
      status = "openInterestCapCanceled" ∨ status = "selfTradeCanceled" ∨
      status = "reduceOnlyCanceled" ∨ status = "siblingFilledCanceled" ∨
      status = "delistedCanceled" then some (.cancelled, true)
  else if status = "rejected" then some (.rejected, true)
  else none

section
variable (lib : Library)

/-- The reading half of `onOrderUpdateMsg`; nothing is reported for foreign orders and for
states that are not used. -/
def readOrderUpdate (m : OrderMaps) (entry : Json) : Except JsonError (Option OrderReport) :=
  match entry.find "order" with
  | none => .ok none
  | some order =>
    if order.isObject then do
      let cloid ← order.value Json.asString "cloid" ""
      if cloid = "" then
        return none
      match m.recForCloid cloid with
      | none => return none
      | some rec =>
        let status ← entry.value Json.asString "status" ""
        let remaining := order.readNum lib.stod "sz"
        let origSz := order.readNum lib.stod "origSz"
        match orderStateOf status with
        | none => return none
        | some (state, terminal) =>
          return some
            { cloid, terminal
              update :=
                { clientOrderId := rec.clientOrderId
                  symbol := rec.symbol
                  price := order.readNum lib.stod "limitPx"
                  cumFilledQty := max 0 (origSz - remaining)
                  reason := status
                  state
                  rejectKind := if state = .rejected then some .hard else none } }
    else .ok none

/-- The event for a fill of a registered order. -/
def fillEvent (rec : OrderRec) (fillJson : Json) : Except JsonError FillEvent := do
  let tid ← fillJson.value lib.asULL "tid" 0
  let qty := fillJson.readNum lib.stod "sz"
  let price := fillJson.readNum lib.stod "px"
  let crossed ← fillJson.value Json.asBool "crossed" false
  return { clientOrderId := rec.clientOrderId
           symbol := rec.symbol
           fillId := toString tid
           qty, price
           isMaker := !crossed }

/-- The reading half of `emitFill`. -/
def readFill (m : OrderMaps) (fillJson : Json) : Except JsonError (Option FillEvent) := do
  let cloid ← fillJson.value Json.asString "cloid" ""
  if cloid = "" then
    return none
  match m.recForCloid cloid with
  | none => return none
  | some rec => return some (← fillEvent lib rec fillJson)

/-- The id that an entry of an order message names. -/
def orderCloid (entry : Json) : Option String :=
  match (entry.find "order").bind (·.find "cloid") with
  | some (.string k) => some k
  | _ => none

/-- The id that a fill names. -/
def fillCloid (fillJson : Json) : Option String :=
  match fillJson.find "cloid" with
  | some (.string k) => some k
  | _ => none

/-- Every state but `accepted` ends the order. -/
lemma terminal_iff {status : String} {state : OrderState} {terminal : Bool}
    (h : orderStateOf status = some (state, terminal)) : terminal = true ↔ state ≠ .accepted := by
  unfold orderStateOf at h
  split_ifs at h <;> (obtain ⟨rfl, rfl⟩ := Prod.mk.inj (Option.some.inj h); decide)

/-- Only registered orders are reported, under the client id they were registered with. -/
lemma readOrderUpdate_some {m : OrderMaps} {entry : Json} {report : OrderReport}
    (h : readOrderUpdate lib m entry = .ok (some report)) :
    report.cloid ≠ "" ∧ ∃ rec, m.byCloid report.cloid = some rec ∧
      report.update.clientOrderId = rec.clientOrderId ∧ report.update.symbol = rec.symbol ∧
      orderCloid entry = some report.cloid ∧
      (report.terminal = true ↔ report.update.state ≠ .accepted) := by
  unfold readOrderUpdate at h
  split at h
  · cases h
  rename_i order ho
  split at h
  swap
  · cases h
  obtain ⟨k, hv, h⟩ := bind_ok h
  by_cases hk : k = ""
  · rw [if_pos hk] at h
    cases h
  rw [if_neg hk] at h
  split at h
  · cases h
  rename_i rec hrec
  obtain ⟨status, _, h⟩ := bind_ok h
  dsimp only at h
  split at h
  · cases h
  rename_i state terminal hstate
  obtain rfl := Option.some.inj (Except.ok.inj h)
  have hnamed : orderCloid entry = some k := by
    simp [orderCloid, ho, Json.find_of_string_value hv hk]
  exact ⟨hk, rec, hrec, rfl, rfl, hnamed, terminal_iff hstate⟩

/-- The event of a fill carries its order's client id and symbol. -/
lemma fillEvent_ids {rec : OrderRec} {fillJson : Json} {fill : FillEvent}
    (h : fillEvent lib rec fillJson = .ok fill) :
    fill.clientOrderId = rec.clientOrderId ∧ fill.symbol = rec.symbol := by
  unfold fillEvent at h
  obtain ⟨tid, _, h⟩ := bind_ok h
  obtain ⟨crossed, _, h⟩ := bind_ok h
  obtain rfl := Except.ok.inj h
  exact ⟨rfl, rfl⟩

lemma readFill_some {m : OrderMaps} {fillJson : Json} {fill : FillEvent}
    (h : readFill lib m fillJson = .ok (some fill)) :
    ∃ k rec, fillJson.find "cloid" = some (.string k) ∧ k ≠ "" ∧ m.byCloid k = some rec ∧
      fillEvent lib rec fillJson = .ok fill := by
  unfold readFill at h
  obtain ⟨k, hv, h⟩ := bind_ok h
  by_cases hk : k = ""
  · rw [if_pos hk] at h
    cases h
  rw [if_neg hk] at h
  split at h
  · cases h
  rename_i rec hrec
  obtain ⟨event, hevent, h⟩ := bind_ok h
  obtain rfl := Option.some.inj (Except.ok.inj h)
  exact ⟨k, rec, Json.find_of_string_value hv hk, hk, hrec, hevent⟩

namespace Gateway

def deliver (p : Gateway) (event : Event) : Gateway :=
  { p with delivered := p.delivered ++ [event] }

def reportUpdate (p : Gateway) (update : OrderUpdate) : Gateway :=
  if p.orderUpdateCB then p.deliver (.orderUpdate update) else p

def pruneCloid (p : Gateway) (cloid : String) : Gateway :=
  { p with orders := p.orders.pruneCloid cloid }

@[simp] lemma deliver_orders (p : Gateway) (event : Event) : (p.deliver event).orders = p.orders :=
  rfl

@[simp] lemma deliver_delivered (p : Gateway) (event : Event) :
    (p.deliver event).delivered = p.delivered ++ [event] := rfl

@[simp] lemma reportUpdate_orders (p : Gateway) (update : OrderUpdate) :
    (p.reportUpdate update).orders = p.orders := by
  unfold reportUpdate
  split <;> rfl

@[simp] lemma reportUpdate_fillCB (p : Gateway) (update : OrderUpdate) :
    (p.reportUpdate update).fillCB = p.fillCB := by
  unfold reportUpdate
  split <;> rfl

@[simp] lemma reportUpdate_orderUpdateCB (p : Gateway) (update : OrderUpdate) :
    (p.reportUpdate update).orderUpdateCB = p.orderUpdateCB := by
  unfold reportUpdate
  split <;> rfl

lemma delivered_subset_reportUpdate (p : Gateway) (update : OrderUpdate) :
    p.delivered ⊆ (p.reportUpdate update).delivered := by
  unfold reportUpdate
  split
  · exact List.subset_append_left _ _
  · exact fun _ h => h

@[simp] lemma pruneCloid_orders (p : Gateway) (cloid : String) :
    (p.pruneCloid cloid).orders = p.orders.pruneCloid cloid := rfl

@[simp] lemma pruneCloid_quoteCache (p : Gateway) (cloid : String) :
    (p.pruneCloid cloid).quoteCache = p.quoteCache := rfl

@[simp] lemma pruneCloid_delivered (p : Gateway) (cloid : String) :
    (p.pruneCloid cloid).delivered = p.delivered := rfl

def onOrderUpdateMsg (p : Gateway) (entry : Json) : Except JsonError Gateway :=
  match readOrderUpdate lib p.orders entry with
  | .error e => .error e
  | .ok none => .ok p
  | .ok (some report) =>
    let reported := p.reportUpdate report.update
    .ok (if report.terminal then reported.pruneCloid report.cloid else reported)

def emitFill (p : Gateway) (fillJson : Json) : Except JsonError Gateway :=
  if p.fillCB then
    match readFill lib p.orders fillJson with
    | .error e => .error e
    | .ok none => .ok p
    | .ok (some fill) => .ok (p.deliver (.fill fill))
  else .ok p

/-- What handling an order update can do. -/
lemma onOrderUpdateMsg_cases {p p' : Gateway} {entry : Json}
    (h : p.onOrderUpdateMsg lib entry = .ok p') : p' = p ∨
      ∃ report, readOrderUpdate lib p.orders entry = .ok (some report) ∧
        p' = if report.terminal then (p.reportUpdate report.update).pruneCloid report.cloid
          else p.reportUpdate report.update := by
  unfold onOrderUpdateMsg at h
  split at h
  · cases h
  · exact .inl (Except.ok.inj h).symm
  · rename_i report hread
    exact .inr ⟨report, hread, (Except.ok.inj h).symm⟩

lemma emitFill_cases {p p' : Gateway} {fillJson : Json} (h : p.emitFill lib fillJson = .ok p') :
    p' = p ∨ p.fillCB = true ∧ ∃ fill, readFill lib p.orders fillJson = .ok (some fill) ∧
      p' = p.deliver (.fill fill) := by
  unfold emitFill at h
  split at h
  · rename_i hcb
    split at h
    · cases h
    · exact .inl (Except.ok.inj h).symm
    · rename_i fill hread
      exact .inr ⟨hcb, fill, hread, (Except.ok.inj h).symm⟩
  · exact .inl (Except.ok.inj h).symm

/-- Handle the entries of a message in order; the first one that throws ends the message. -/
def forEach (handle : Gateway → Json → Except JsonError Gateway) :
    Gateway → List Json → Gateway × Option JsonError
  | p, [] => (p, none)
  | p, entry :: entries =>
    match handle p entry with
    | .error e => (p, some e)
    | .ok p' => forEach handle p' entries

end Gateway

/-- What `onUserFillsMsg` iterates over; a snapshot holds historical fills and is skipped. -/
def fillsOf (data : Json) : Except JsonError (List Json) := do
  let isSnapshot ← data.value Json.asBool "isSnapshot" false
  if isSnapshot then
    return []
  match data.find "fills" with
  | some (.array fills) => return fills
  | _ => return []

def levelPx (level : Json) : ℚ :=
  if level.isObject then level.readNum lib.stod "px" else 0

/-- The best bid and offer of a book message, with the coin. -/
def readBbo (data : Json) : Except JsonError (String × Quote) := do
  let coin ← data.value Json.asString "coin" ""
  let bbo ← data.value some "bbo" (.array [])
  let bid ← if bbo.empty then pure 0 else levelPx lib <$> bbo.at' 0
  let ask ← if bbo.size > 1 then levelPx lib <$> bbo.at' 1 else pure 0
  return (coin, ⟨bid, ask⟩)

namespace Gateway

def onUserFillsMsg (p : Gateway) (data : Json) : Gateway × Option JsonError :=
  match fillsOf data with
  | .error e => (p, some e)
  | .ok fills => p.forEach (emitFill lib) fills

def onBbo (p : Gateway) (coin : String) (quote : Quote) : Gateway :=
  let cached := { p with quoteCache := Function.update p.quoteCache coin (some quote) }
  if cached.quoteCB then cached.deliver (.quote coin quote) else cached

@[simp] lemma onBbo_orders (p : Gateway) (coin : String) (quote : Quote) :
    (p.onBbo coin quote).orders = p.orders := by
  dsimp only [onBbo]
  split <;> rfl

@[simp] lemma onBbo_fillCB (p : Gateway) (coin : String) (quote : Quote) :
    (p.onBbo coin quote).fillCB = p.fillCB := by
  dsimp only [onBbo]
  split <;> rfl

@[simp] lemma onBbo_orderUpdateCB (p : Gateway) (coin : String) (quote : Quote) :
    (p.onBbo coin quote).orderUpdateCB = p.orderUpdateCB := by
  dsimp only [onBbo]
  split <;> rfl

lemma delivered_subset_onBbo (p : Gateway) (coin : String) (quote : Quote) :
    p.delivered ⊆ (p.onBbo coin quote).delivered := by
  dsimp only [onBbo]
  split
  · exact List.subset_append_left _ _
  · exact fun _ h => h

/-- The stream manager's `onMessage` with the three callbacks that `start` sets. -/
def onMessage (p : Gateway) (json : Json) : Gateway × Option JsonError :=
  match json.find "channel", json.find "data" with
  | some (.string channel), some data =>
    if channel = "bbo" then
      if data.isObject then
        match readBbo lib data with
        | .error e => (p, some e)
        | .ok (coin, quote) => if coin = "" then (p, none) else (p.onBbo coin quote, none)
      else (p, none)
    else if channel = "orderUpdates" then
      match data with
      | .array entries => p.forEach (onOrderUpdateMsg lib) entries
      | _ => (p, none)
    else if channel = "userFills" then
      if data.isObject then p.onUserFillsMsg lib data else (p, none)
    else (p, none)
  | _, _ => (p, none)

/-- The session hands a message on and catches what the handlers throw; acknowledgements go
no further. -/
def dispatch (p : Gateway) (json : Json) : Gateway :=
  match json.find "channel" with
  | some (.string channel) =>
    if channel = "pong" ∨ channel = "subscriptionResponse" then p else (p.onMessage lib json).1
  | _ => (p.onMessage lib json).1

end Gateway
end

/-- A gateway with one order and all callbacks set. -/
def oneOrder : Gateway :=
  ⟨(OrderMaps.empty.makeCloid 1000 "a" "BTC" 1).2, fun _ => none, true, true, true, []⟩

end HyperliquidApi
