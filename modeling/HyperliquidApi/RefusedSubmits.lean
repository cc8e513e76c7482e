import HyperliquidApi.GatewayRuns
import HyperliquidApi.LatestUniverse
import HyperliquidApi.OrderWires

/-!
# Refused submits

A submit that is refused by the venue undoes its registration by the id it has generated. The
registration may have written over the entry of an earlier order of the same client id, which the
undoing does not bring back.
-/
namespace HyperliquidApi.RefusedSubmits
open Runs

/-- What a submit reads and writes. -/
structure GatewayState where
  gateway : Gateway
  tables : InstrumentTables

/-- A refusal, or an exception of the request itself. -/
inductive SubmitError
  | gateway (error : GatewayError)
  | transport (what : String)
  deriving DecidableEq

section
variable (formatDouble : ℚ → String)

/-- The tables after the lookups. -/
def tablesAfter (t : InstrumentTables) (quoteCache : String → Option Quote) :
    Submission → InstrumentTables
  | .postOnlyLimit _ _ _ _ _ => t
  | .reduceOnlyMarket symbol side qty =>
    (reduceOnlyMarket formatDouble t quoteCache symbol side qty).2

/-- `submitPostOnlyLimit` and `submitReduceOnlyMarket`, with the reply that `placeLimit` gets. -/
def submit (placeLimit : LimitOrder → String → Except String ActionStatus) (s : GatewayState)
    (ms : ℕ) (clientOrderId : String) (sub : Submission) :
    Except SubmitError Unit × GatewayState :=
  let looked := { s with tables := tablesAfter formatDouble s.tables s.gateway.quoteCache sub }
  match sub.order formatDouble s.tables s.gateway.quoteCache with
  | .error e => (.error (.gateway e), looked)
  | .ok order =>
    let (cloid, orders) := s.gateway.orders.makeCloid ms clientOrderId sub.symbol order.origSz
    let placed := { looked with gateway := { s.gateway with orders } }
    match placeLimit order cloid with
    | .error what => (.error (.transport what), placed)
    | .ok status =>
      if status.kind = .error then
        (.error (.gateway ⟨classifyReject status.error, status.error⟩),
          { placed with gateway := placed.gateway.pruneCloid cloid })
      else (.ok (), placed)

/-- The id that the submit would generate. -/
def nextCloid (s : GatewayState) (ms : ℕ) : String := formatCloid ms s.gateway.orders.cloidCounter

/-- No trace of a submit but the counter of ids. -/
structure Untouched (s s' : GatewayState) : Prop where
  byCloid : s'.gateway.orders.byCloid = s.gateway.orders.byCloid
  clientToCloid : s'.gateway.orders.clientToCloid = s.gateway.orders.clientToCloid
  tables : s'.tables = s.tables
  quoteCache : s'.gateway.quoteCache = s.gateway.quoteCache

end

lemma pruned_register_byCloid (m : OrderMaps) (k : String) (rec : OrderRec) :
    ((m.register k rec).pruneCloid k).byCloid = Function.update m.byCloid k none := by
  rw [OrderMaps.pruneCloid_byCloid, OrderMaps.register_byCloid, Function.update_idem]

lemma pruned_register_clientToCloid (m : OrderMaps) (k : String) (rec : OrderRec) :
    ((m.register k rec).pruneCloid k).clientToCloid =
      Function.update m.clientToCloid rec.clientOrderId none := by
  have hfound : (m.register k rec).byCloid k = some rec := by simp
  rw [OrderMaps.pruneCloid_clientToCloid hfound, OrderMaps.register_clientToCloid,
    Function.update_idem]

section
variable (formatDouble : ℚ → String)

/-- On tables with the same keys a lookup inserts nothing. -/
lemma tablesAfter_of_uniform {t : InstrumentTables} (h : LatestUniverse.Uniform t)
    (quoteCache : String → Option Quote) (sub : Submission) :
    tablesAfter formatDouble t quoteCache sub = t := by
  cases sub with
  | postOnlyLimit symbol side qty price reduceOnly => rfl
  | reduceOnlyMarket symbol side qty =>
    simp only [tablesAfter, reduceOnlyMarket]
    split
    · rfl
    · rename_i hasset
      have hkey : t.assetIndex symbol ≠ none := by
        intro hnone
        simp [InstrumentTables.assetFor, hnone] at hasset
      have hkept : (referencePrice t quoteCache symbol side).2 = t := by
        unfold referencePrice
        dsimp only
        split
        · exact LatestUniverse.lastMidAt_of_uniform h hkey
        · rfl
      split
      · exact hkept
      · exact hkept

/-- What a refused submit leaves behind. -/
lemma refused_cases {placeLimit : LimitOrder → String → Except String ActionStatus}
    {s s' : GatewayState} {ms : ℕ} {clientOrderId : String} {sub : Submission} {e : GatewayError}
    (h : submit formatDouble placeLimit s ms clientOrderId sub = (.error (.gateway e), s')) :
    s'.tables = tablesAfter formatDouble s.tables s.gateway.quoteCache sub ∧
    s'.gateway.quoteCache = s.gateway.quoteCache ∧
    ((sub.order formatDouble s.tables s.gateway.quoteCache = .error e ∧ s'.gateway = s.gateway) ∨
      ∃ order, sub.order formatDouble s.tables s.gateway.quoteCache = .ok order ∧
        s'.gateway.orders.byCloid =
          Function.update s.gateway.orders.byCloid (nextCloid s ms) none ∧
        s'.gateway.orders.clientToCloid =
          Function.update s.gateway.orders.clientToCloid clientOrderId none) := by
  unfold submit at h
  cases horder : sub.order formatDouble s.tables s.gateway.quoteCache with
  | error e' =>
    rw [horder] at h
    obtain ⟨herror, rfl⟩ := Prod.mk.inj h
    obtain rfl := SubmitError.gateway.inj (Except.error.inj herror)
    exact ⟨rfl, rfl, .inl ⟨rfl, rfl⟩⟩
  | ok order =>
    have hnext : formatCloid ms s.gateway.orders.cloidCounter = nextCloid s ms := rfl
    simp only [horder, OrderMaps.makeCloid, hnext] at h
    have hbyCloid := pruned_register_byCloid s.gateway.orders.fetchAdd (nextCloid s ms)
      ⟨clientOrderId, sub.symbol, order.origSz⟩
    have hclient := pruned_register_clientToCloid s.gateway.orders.fetchAdd (nextCloid s ms)
      ⟨clientOrderId, sub.symbol, order.origSz⟩
    split at h
    · obtain ⟨herror, _⟩ := Prod.mk.inj h
      cases Except.error.inj herror
    · split at h
      · obtain ⟨_, rfl⟩ := Prod.mk.inj h
        simp only [Gateway.pruneCloid_quoteCache, Gateway.pruneCloid_orders]
        exact ⟨trivial, trivial, .inr ⟨order, rfl, hbyCloid, hclient⟩⟩
      · obtain ⟨hok, _⟩ := Prod.mk.inj h
        cases hok

/-- Uninterrupted, the steps of a submit that is sent are those of a thread from its draw on. -/
lemma alone_submit (lib : Library) {t ms : ℕ} {s : GatewayRuns.System}
    (hidle : s.calls t = .idle) {tables : InstrumentTables}
    {placeLimit : LimitOrder → String → Except String ActionStatus} {clientOrderId : String}
    {sub : Submission} {order : LimitOrder} {status : ActionStatus}
    (horder : sub.order formatDouble tables s.gateway.quoteCache = .ok order)
    (hplaced : placeLimit order (nextCloid ⟨s.gateway, tables⟩ ms) = .ok status) :
    ∃ s', execute (GatewayRuns.step lib) anyStep s
        (.draw t ms clientOrderId sub.symbol order.origSz :: .register t :: .placed t status ::
          if status.kind = .error then [.prune t] else []) = some s' ∧
      s'.gateway =
        (submit formatDouble placeLimit ⟨s.gateway, tables⟩ ms clientOrderId sub).2.gateway := by
  unfold nextCloid at hplaced
  by_cases hrefused : status.kind = .error
  · simp [execute, anyStep, GatewayRuns.step, hidle, hrefused, submit, horder, hplaced,
      OrderMaps.makeCloid, GatewayRuns.System.setCall, GatewayRuns.System.observe]
  · simp [execute, anyStep, GatewayRuns.step, hidle, hrefused, submit, horder, hplaced,
      OrderMaps.makeCloid, GatewayRuns.System.setCall, GatewayRuns.System.observe]

/-- A refused submit leaves no trace exactly when it is refused before it registers the order, or
when its client id, like the id that it generates, has no entry to write over. -/
theorem refused_untouched_iff (r : JsonReaders) {as : List LatestUniverse.Action}
    {i : LatestUniverse.Instruments}
    (hrun : Run (LatestUniverse.step r) anyStep LatestUniverse.initial as i) (p : Gateway)
    {placeLimit : LimitOrder → String → Except String ActionStatus} {ms : ℕ}
    {clientOrderId : String} {sub : Submission} {e : GatewayError} {s' : GatewayState}
    (h : submit formatDouble placeLimit ⟨p, i.tables⟩ ms clientOrderId sub =
      (.error (.gateway e), s')) :
    Untouched ⟨p, i.tables⟩ s' ↔
      (∃ e, sub.order formatDouble i.tables p.quoteCache = .error e) ∨
      (p.orders.clientToCloid clientOrderId = none ∧
        p.orders.byCloid (nextCloid ⟨p, i.tables⟩ ms) = none) := by
  obtain ⟨htables, hquotes, hcases⟩ := refused_cases formatDouble h
  rw [tablesAfter_of_uniform formatDouble (LatestUniverse.uniform_of_run r hrun)] at htables
  rcases hcases with ⟨horder, hgateway⟩ | ⟨order, horder, hbyCloid, hclient⟩
  · refine iff_of_true ⟨?_, ?_, htables, hquotes⟩ (.inl ⟨e, horder⟩)
    · rw [hgateway]
    · rw [hgateway]
  · have hsent : ¬ ∃ e, sub.order formatDouble i.tables p.quoteCache = .error e := by
      rintro ⟨e', he'⟩
      rw [horder] at he'
      cases he'
    rw [or_iff_right hsent]
    constructor
    · intro huntouched
      rw [huntouched.clientToCloid] at hclient
      rw [huntouched.byCloid] at hbyCloid
      exact ⟨(Function.update_eq_self_iff.mp hclient.symm).symm,
        (Function.update_eq_self_iff.mp hbyCloid.symm).symm⟩
    · rintro ⟨hnoClient, hnew⟩
      refine ⟨?_, ?_, htables, hquotes⟩
      · rw [hbyCloid]
        exact Function.update_eq_self_iff.mpr hnew.symm
      · rw [hclient]
        exact Function.update_eq_self_iff.mpr hnoClient.symm

end

/-! The venue refuses every order. -/

def postOnlyCross : LimitOrder → String → Except String ActionStatus :=
  fun _ _ => .ok ⟨.error, "Post only order would have immediately matched"⟩

/-- The tables and the quotes after one load. -/
def loaded : LatestUniverse.Instruments where
  tables := InstrumentTables.empty.load [⟨0, "BTC", 5, false, 0, 60000, 0, 0, 0⟩]
  quoteCache _ := none

lemma loaded_run : Run (LatestUniverse.step LatestUniverse.documented) anyStep
    LatestUniverse.initial [.loadUniverse (.ok (LatestUniverse.btcReply false))] loaded :=
  run_of_execute rfl

lemma one_unit : ¬ normalizeSize 1 5 ≤ 0 := by
  have hsize := normalizeSize_eq 1 5
  have hpos : 0 < Rounding.roundTo 5 1 := (Rounding.roundTo_pos_iff (by norm_num)).mpr (by norm_num)
  rw [show ((5 : ℕ) : ℤ) = 5 by norm_num] at hsize
  rw [hsize, not_le]
  exact hpos

/-- One Bitcoin, bid at 60000. -/
def oneBid : Submission := .postOnlyLimit "BTC" .buy 1 60000 false

lemma oneBid_refused (p : Gateway) (ms : ℕ) (clientOrderId : String) :
    (∃ order, oneBid.order (fun _ => "") loaded.tables p.quoteCache = .ok order) ∧
    ∃ e s', submit (fun _ => "") postOnlyCross ⟨p, loaded.tables⟩ ms clientOrderId oneBid =
      (.error (.gateway e), s') := by
  have hasset : loaded.tables.assetFor "BTC" = 0 := rfl
  have hdecimals : loaded.tables.szDecimalsFor "BTC" = 5 := rfl
  obtain ⟨order, horder⟩ : ∃ order,
      oneBid.order (fun _ => "") loaded.tables p.quoteCache = .ok order := by
    simp [oneBid, Submission.order, postOnlyLimit, hasset, hdecimals, limitOrder, one_unit]
  exact ⟨⟨order, horder⟩, by simp [submit, horder, postOnlyCross]⟩

/-- A client id without an order. -/
theorem refused_untouched_iff_new : ∃ e s',
    submit (fun _ => "") postOnlyCross
      ⟨(GatewayRuns.initial true true true).gateway, loaded.tables⟩ 1000 "a" oneBid =
      (.error (.gateway e), s') ∧
    Untouched ⟨(GatewayRuns.initial true true true).gateway, loaded.tables⟩ s' := by
  obtain ⟨_, e, s', hrefused⟩ :=
    oneBid_refused (GatewayRuns.initial true true true).gateway 1000 "a"
  exact ⟨e, s', hrefused, (refused_untouched_iff (fun _ => "") LatestUniverse.documented loaded_run _
    hrefused).mpr (.inr ⟨rfl, rfl⟩)⟩

/-- The client id of a live order is submitted again and refused; `cancel` no longer finds the
order, which is on the book. -/
theorem refused_resubmit_erases : ∃ s e s',
    Run (GatewayRuns.step noNumbers) anyStep (GatewayRuns.initial true true true)
      GatewayRuns.oneSubmit s ∧
    Run (LatestUniverse.step LatestUniverse.documented) anyStep LatestUniverse.initial
      [.loadUniverse (.ok (LatestUniverse.btcReply false))] loaded ∧
    submit (fun _ => "") postOnlyCross ⟨s.gateway, loaded.tables⟩ 1001 "a" oneBid =
      (.error (.gateway e), s') ∧
    s.gateway.orders.clientToCloid "a" = some GatewayRuns.ownCloid ∧
    s'.gateway.orders.clientToCloid "a" = none ∧ ¬ Untouched ⟨s.gateway, loaded.tables⟩ s' := by
  obtain ⟨s, hs, hlive⟩ : ∃ s, Run (GatewayRuns.step noNumbers) anyStep
      (GatewayRuns.initial true true true) GatewayRuns.oneSubmit s ∧
      s.gateway.orders.clientToCloid "a" = some GatewayRuns.ownCloid :=
    ⟨_, run_of_execute rfl, rfl⟩
  obtain ⟨⟨order, horder⟩, e, s', hrefused⟩ := oneBid_refused s.gateway 1001 "a"
  have herased : s'.gateway.orders.clientToCloid "a" = none := by
    obtain ⟨_, _, ⟨hrejected, _⟩ | ⟨_, _, _, hclient⟩⟩ := refused_cases (fun _ => "") hrefused
    · rw [horder] at hrejected
      cases hrejected
    · rw [hclient, Function.update_self]
  refine ⟨s, e, s', hs, loaded_run, hrefused, hlive, herased, ?_⟩
  intro huntouched
  rw [huntouched.clientToCloid, hlive] at herased
  cases herased

end HyperliquidApi.RefusedSubmits
