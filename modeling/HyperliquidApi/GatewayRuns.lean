import HyperliquidApi.RejectReasons
import HyperliquidApi.Runs

/-!
# Runs of the gateway

The stream's thread and any number of calling threads share the order maps. A step is what
one thread does between two points where another may run: one locked access, one callback or
one network reply. The environment chooses what the venue answers and which messages arrive.
The user's callbacks return: one that throws inside a handler is not modelled.
-/
namespace HyperliquidApi.GatewayRuns
open Runs

/-- A fill as `getUserFills` returns it. -/
structure UserFill where
  px : ℚ
  sz : ℚ
  tid : ℕ
  cloid : String
  crossed : Bool
  deriving DecidableEq

/-- What is left of the message that the stream's thread is handling. -/
inductive Io
  | idle
  | orders (rest : List Json)
  | report (report : OrderReport) (rest : List Json)
  | prune (cloid : String) (rest : List Json)
  | fills (rest : List Json)
  | hand (fill : FillEvent) (rest : List Json)

/-- Where a thread is in `submit` or `cancel`. -/
inductive Call
  | idle
  | naming (cloid : String) (rec : OrderRec)
  | placing (cloid : String)
  | refused (cloid reason : String)
  | cancelling (clientOrderId symbol cloid : String)
  | gone (clientOrderId symbol cloid : String)
  | fetching (clientOrderId symbol cloid found : String)
  | reemitting (clientOrderId symbol cloid found : String) (reply rest : List UserFill)

/-- What has happened, as far as the results below speak about it. -/
inductive Observation
  | registered (cloid : String) (rec : OrderRec)
  | rejected (cloid : String)
  | threw (cloid : String) (error : GatewayError)
  | reported (cloid : String) (update : OrderUpdate)
  | ended (cloid : String)
  | arrived (cloid : String) (fillJson : Json)
  | returned (clientOrderId cloid : String) (reply : List UserFill)

/-- `venueFills` is what the venue would answer to `getUserFills` now. -/
structure System where
  gateway : Gateway
  io : Io
  calls : ℕ → Call
  venueFills : List UserFill
  history : List Observation

inductive Action
  | draw (t ms : ℕ) (clientOrderId symbol : String) (origSz : ℚ)
  | register (t : ℕ)
  | placed (t : ℕ) (status : ActionStatus)
  | prune (t : ℕ)
  | cancel (t : ℕ) (asset : ℤ) (clientOrderId symbol : String)
  | cancelled (t : ℕ) (status : ActionStatus)
  | reconcile (t : ℕ)
  | fetched (t : ℕ)
  | reemit (t : ℕ)
  | fail (t : ℕ)
  | trade (fills : List UserFill)
  | receive (json : Json)
  | io

/-- What a message leaves to do once its envelope has been read. -/
inductive Work
  | none
  | quote (coin : String) (quote : Quote)
  | orders (entries : List Json)
  | fills (entries : List Json)

section
variable (lib : Library)

/-- `dispatch` up to the handlers of the entries; a message whose envelope throws is dropped. -/
def workOf (json : Json) : Work :=
  match json.find "channel", json.find "data" with
  | some (.string channel), some data =>
    if channel = "bbo" then
      if data.isObject then
        match readBbo lib data with
        | .error _ => .none
        | .ok (coin, quote) => if coin = "" then .none else .quote coin quote
      else .none
    else if channel = "orderUpdates" then
      match data with
      | .array entries => .orders entries
      | _ => .none
    else if channel = "userFills" then
      if data.isObject then
        match fillsOf data with
        | .error _ => .none
        | .ok fills => .fills fills
      else .none
    else .none
  | _, _ => .none

namespace System

def setCall (s : System) (t : ℕ) (call : Call) : System :=
  { s with calls := Function.update s.calls t call }

def observe (s : System) (o : Observation) : System := { s with history := o :: s.history }

/-- A submit has registered this client id. -/
def Submitted (s : System) (cloid : String) : Prop := ∃ rec, .registered cloid rec ∈ s.history

def submitted (s : System) (cloid : String) : Bool :=
  s.history.any fun o => match o with
    | .registered k _ => k = cloid
    | _ => false

/-- The entries of a fills message that belong to submitted orders. -/
def arrivals (s : System) (entries : List Json) : List Observation :=
  entries.filterMap fun entry =>
    match entry.find "cloid" with
    | some (.string k) => if s.submitted k then some (.arrived k entry) else none
    | _ => none

def receive (s : System) (json : Json) : System :=
  match workOf lib json with
  | .none => s
  | .quote coin quote => { s with gateway := s.gateway.onBbo coin quote }
  | .orders entries => { s with io := .orders entries }
  | .fills entries =>
    { s with io := .fills entries, history := s.arrivals entries ++ s.history }

/-- One step of the stream's thread; an entry that throws ends its message. -/
def ioStep (s : System) : Option System :=
  match s.io with
  | .idle => none
  | .orders [] => some { s with io := .idle }
  | .orders (entry :: rest) =>
    match readOrderUpdate lib s.gateway.orders entry with
    | .error _ => some { s with io := .idle }
    | .ok none => some { s with io := .orders rest }
    | .ok (some report) => some { s with io := .report report rest }
  | .report report rest =>
    some
      { s with
        gateway := s.gateway.reportUpdate report.update
        io := if report.terminal then .prune report.cloid rest else .orders rest
        history := .reported report.cloid report.update :: s.history }
  | .prune cloid rest =>
    some
      { s with
        gateway := s.gateway.pruneCloid cloid
        io := .orders rest
        history := .ended cloid :: s.history }
  | .fills [] => some { s with io := .idle }
  | .fills (entry :: rest) =>
    if s.gateway.fillCB then
      match readFill lib s.gateway.orders entry with
      | .error _ => some { s with io := .idle }
      | .ok none => some { s with io := .fills rest }
      | .ok (some fill) => some { s with io := .hand fill rest }
    else some { s with io := .fills rest }
  | .hand fill rest =>
    some { s with gateway := s.gateway.deliver (.fill fill), io := .fills rest }

/-- The event that `reconcileMissedFills` emits for a fill. -/
def reemission (clientOrderId symbol : String) (fill : UserFill) : FillEvent :=
  { clientOrderId, symbol
    fillId := toString fill.tid
    qty := fill.sz
    price := fill.px
    isMaker := !fill.crossed }

end System

def step (s : System) : Action → Option System
  | .draw t ms clientOrderId symbol origSz =>
    match s.calls t with
    | .idle =>
      let cloid := formatCloid ms s.gateway.orders.cloidCounter
      some ({ s with gateway := { s.gateway with orders := s.gateway.orders.fetchAdd } }.setCall t
        (.naming cloid ⟨clientOrderId, symbol, origSz⟩))
    | _ => none
  | .register t =>
    match s.calls t with
    | .naming cloid rec =>
      some (({ s with gateway := { s.gateway with orders := s.gateway.orders.register cloid rec } }
        |>.setCall t (.placing cloid)).observe (.registered cloid rec))
    | _ => none
  | .placed t status =>
    match s.calls t with
    | .placing cloid =>
      if status.kind = .error then
        some ((s.setCall t (.refused cloid status.error)).observe (.rejected cloid))
      else some (s.setCall t .idle)
    | _ => none
  | .prune t =>
    match s.calls t with
    | .refused cloid reason =>
      some (({ s with gateway := s.gateway.pruneCloid cloid }.setCall t .idle).observe
        (.threw cloid ⟨classifyReject reason, reason⟩))
    | _ => none
  | .cancel t asset clientOrderId symbol =>
    match s.calls t with
    | .idle =>
      let cloid := s.gateway.orders.cloidFor clientOrderId
      if asset < 0 ∨ cloid = "" then some s
      else some (s.setCall t (.cancelling clientOrderId symbol cloid))
    | _ => none
  | .cancelled t status =>
    match s.calls t with
    | .cancelling clientOrderId symbol cloid =>
      if status.kind = .error ∧ isOrderGoneReason status.error then
        some (s.setCall t (.gone clientOrderId symbol cloid))
      else some (s.setCall t .idle)
    | _ => none
  | .reconcile t =>
    match s.calls t with
    | .gone clientOrderId symbol cloid =>
      let found := s.gateway.orders.cloidFor clientOrderId
      if s.gateway.fillCB ∧ found ≠ "" then
        some (s.setCall t (.fetching clientOrderId symbol cloid found))
      else some ((s.setCall t .idle).observe (.returned clientOrderId cloid s.venueFills))
    | _ => none
  | .fetched t =>
    match s.calls t with
    | .fetching clientOrderId symbol cloid found =>
      some (s.setCall t
        (.reemitting clientOrderId symbol cloid found s.venueFills s.venueFills))
    | _ => none
  | .reemit t =>
    match s.calls t with
    | .reemitting clientOrderId _ cloid _ reply [] =>
      some ((s.setCall t .idle).observe (.returned clientOrderId cloid reply))
    | .reemitting clientOrderId symbol cloid found reply (fill :: rest) =>
      let s' := s.setCall t (.reemitting clientOrderId symbol cloid found reply rest)
      if fill.cloid ≠ found ∨ fill.tid = 0 then some s'
      else
        some { s' with
               gateway := s'.gateway.deliver (.fill (System.reemission clientOrderId symbol fill)) }
    | _ => none
  | .fail t =>
    match s.calls t with
    | .placing _ => some (s.setCall t .idle)
    | .cancelling _ _ _ => some (s.setCall t .idle)
    | .fetching _ _ _ _ => some (s.setCall t .idle)
    | _ => none
  | .trade fills => some { s with venueFills := fills }
  | .receive json =>
    match s.io with
    | .idle => some (s.receive lib json)
    | _ => none
  | .io => s.ioStep lib

end

/-- Nothing submitted yet, with the callbacks as they were set before `start`. -/
def initial (orderUpdateCB fillCB quoteCB : Bool) : System :=
  { gateway := ⟨OrderMaps.empty, fun _ => none, orderUpdateCB, fillCB, quoteCB, []⟩
    io := .idle
    calls := fun _ => .idle
    venueFills := []
    history := [] }

/-! One order that the venue accepts, the message that reports it filled, and its fill. -/

def ownCloid : String := formatCloid 1000 1

def oneSubmit : List Action :=
  [.draw 0 1000 "a" "BTC" 1, .register 0, .placed 0 ⟨.resting, ""⟩]

def filledMessage : Json :=
  .object [("channel", .string "orderUpdates"), ("data", .array [.object
    [("order", .object [("cloid", .string ownCloid)]), ("status", .string "filled")]])]

def ownFill (tid : ℕ) : Json :=
  .object [("cloid", .string ownCloid), ("px", .string "100"), ("sz", .string "1"),
    ("tid", .number (.unsigned tid)), ("crossed", .bool true)]

def fillMessage : Json :=
  .object [("channel", .string "userFills"), ("data", .object [("fills", .array [ownFill 8])])]

section
variable (lib : Library)

/-- Some steps of the stream's thread with no other thread in between. -/
def Quiet : System → System → Prop :=
  Relation.ReflTransGen fun s s' => s.ioStep lib = some s'

/-- Uninterrupted, the steps for a batch of order updates are the loop over its entries. -/
lemma quiet_orders (entries : List Json) (s : System) :
    ∃ s', Quiet lib { s with io := .orders entries } s' ∧ s'.io = .idle ∧
      s'.gateway = (s.gateway.forEach (Gateway.onOrderUpdateMsg lib) entries).1 := by
  induction entries generalizing s with
  | nil => exact ⟨{ s with io := .idle }, .single rfl, rfl, rfl⟩
  | cons entry rest ih =>
    cases hr : readOrderUpdate lib s.gateway.orders entry with
    | error e =>
      refine ⟨{ s with io := .idle }, .single (by simp [System.ioStep, hr]), rfl, ?_⟩
      simp [Gateway.forEach, Gateway.onOrderUpdateMsg, hr]
    | ok read =>
      cases read with
      | none =>
        obtain ⟨s', hq, hidle, hg⟩ := ih s
        refine ⟨s', .head (by simp [System.ioStep, hr]) hq, hidle, ?_⟩
        simp [Gateway.forEach, Gateway.onOrderUpdateMsg, hr, hg]
      | some report =>
        have hread : System.ioStep lib { s with io := .orders (entry :: rest) } =
            some { s with io := .report report rest } := by simp [System.ioStep, hr]
        let reported : System :=
          { s with
            gateway := s.gateway.reportUpdate report.update
            history := .reported report.cloid report.update :: s.history }
        cases hterminal : report.terminal with
        | false =>
          have hreport : System.ioStep lib { s with io := .report report rest } =
              some { reported with io := .orders rest } := by
            simp [System.ioStep, reported, hterminal]
          obtain ⟨s', hq, hidle, hg⟩ := ih reported
          refine ⟨s', .head hread (.head hreport hq), hidle, ?_⟩
          simp [Gateway.forEach, Gateway.onOrderUpdateMsg, hr, hg, hterminal, reported]
        | true =>
          have hreport : System.ioStep lib { s with io := .report report rest } =
              some { reported with io := .prune report.cloid rest } := by
            simp [System.ioStep, reported, hterminal]
          obtain ⟨s', hq, hidle, hg⟩ := ih
            { reported with
              gateway := reported.gateway.pruneCloid report.cloid
              history := .ended report.cloid :: reported.history }
          refine ⟨s', .head hread (.head hreport (.head rfl hq)), hidle, ?_⟩
          simp [Gateway.forEach, Gateway.onOrderUpdateMsg, hr, hg, hterminal, reported]

lemma quiet_fills (entries : List Json) (s : System) :
    ∃ s', Quiet lib { s with io := .fills entries } s' ∧ s'.io = .idle ∧
      s'.gateway = (s.gateway.forEach (Gateway.emitFill lib) entries).1 := by
  induction entries generalizing s with
  | nil => exact ⟨{ s with io := .idle }, .single rfl, rfl, rfl⟩
  | cons entry rest ih =>
    cases hcb : s.gateway.fillCB with
    | false =>
      obtain ⟨s', hq, hidle, hg⟩ := ih s
      refine ⟨s', .head (by simp [System.ioStep, hcb]) hq, hidle, ?_⟩
      simp [Gateway.forEach, Gateway.emitFill, hcb, hg]
    | true =>
      cases hr : readFill lib s.gateway.orders entry with
      | error e =>
        refine ⟨{ s with io := .idle }, .single (by simp [System.ioStep, hcb, hr]), rfl, ?_⟩
        simp [Gateway.forEach, Gateway.emitFill, hcb, hr]
      | ok read =>
        cases read with
        | none =>
          obtain ⟨s', hq, hidle, hg⟩ := ih s
          refine ⟨s', .head (by simp [System.ioStep, hcb, hr]) hq, hidle, ?_⟩
          simp [Gateway.forEach, Gateway.emitFill, hcb, hr, hg]
        | some fill =>
          have hread : System.ioStep lib { s with io := .fills (entry :: rest) } =
              some { s with io := .hand fill rest } := by simp [System.ioStep, hcb, hr]
          obtain ⟨s', hq, hidle, hg⟩ := ih { s with gateway := s.gateway.deliver (.fill fill) }
          refine ⟨s', .head hread (.head rfl hq), hidle, ?_⟩
          simp [Gateway.forEach, Gateway.emitFill, hcb, hr, hg]

/-- What is left to do when a message arrives, done at once. -/
def Work.run (p : Gateway) : Work → Gateway
  | .none => p
  | .quote coin bbo => p.onBbo coin bbo
  | .orders entries => (p.forEach (Gateway.onOrderUpdateMsg lib) entries).1
  | .fills entries => (p.forEach (Gateway.emitFill lib) entries).1

lemma onMessage_eq_run (p : Gateway) (json : Json) :
    (p.onMessage lib json).1 = (workOf lib json).run lib p := by
  by_cases hnamed : ∃ channel data, json.find "channel" = some (.string channel) ∧
      json.find "data" = some data
  · obtain ⟨channel, data, hc, hd⟩ := hnamed
    simp only [Gateway.onMessage, workOf, hc, hd]
    by_cases hbbo : channel = "bbo"
    · simp only [hbbo, if_true]
      cases data.isObject with
      | false => rfl
      | true =>
        cases hr : readBbo lib data with
        | error e => simp [Work.run]
        | ok read =>
          by_cases hcoin : read.1 = "" <;> simp [hcoin, Work.run]
    · by_cases horders : channel = "orderUpdates"
      · simp only [horders]
        cases data <;> rfl
      · by_cases hfills : channel = "userFills"
        · simp only [hfills]
          cases data.isObject with
          | false => rfl
          | true =>
            cases hr : fillsOf data with
            | error e => simp [Gateway.onUserFillsMsg, hr, Work.run]
            | ok fills => simp [Gateway.onUserFillsMsg, hr, Work.run]
        · simp [hbbo, horders, hfills, Work.run]
  · have hmessage : p.onMessage lib json = (p, none) := by
      unfold Gateway.onMessage
      split
      · rename_i channel data hc hd
        exact (hnamed ⟨channel, data, hc, hd⟩).elim
      · rfl
    have hwork : workOf lib json = .none := by
      unfold workOf
      split
      · rename_i channel data hc hd
        exact (hnamed ⟨channel, data, hc, hd⟩).elim
      · rfl
    rw [hmessage, hwork]
    rfl

lemma dispatch_eq_run (p : Gateway) (json : Json) :
    p.dispatch lib json = (workOf lib json).run lib p := by
  unfold Gateway.dispatch
  split
  · rename_i channel hchannel
    split
    · rename_i hack
      have hnone : workOf lib json = .none := by
        rcases hack with rfl | rfl <;> cases hd : json.find "data" <;> simp [workOf, hchannel, hd]
      rw [hnone]
      rfl
    · exact onMessage_eq_run lib p json
  · exact onMessage_eq_run lib p json

/-- Receiving a message and then handling it without interruption is `dispatch`. -/
theorem quiet_dispatch (json : Json) {s : System} (h : s.io = .idle) :
    ∃ s', Quiet lib (s.receive lib json) s' ∧ s'.io = .idle ∧
      s'.gateway = s.gateway.dispatch lib json := by
  rw [dispatch_eq_run]
  unfold System.receive
  cases workOf lib json with
  | none => exact ⟨s, .refl, h, rfl⟩
  | quote coin bbo => exact ⟨_, .refl, h, rfl⟩
  | orders entries => exact quiet_orders lib entries s
  | fills entries => exact quiet_fills lib entries { s with history := s.arrivals entries ++ s.history }

end

end HyperliquidApi.GatewayRuns
