import HyperliquidApi.DroppedOrders

/-!
# What the order maps remember

Registrations and drops come from any number of threads, and both maps are their history read in
order: an id has its latest record until that is dropped, and a client order has its latest id until
any record of that client order is dropped. Cancels, and the fills that a cancel emits again, go by
the id that the client order had when it was looked up.
-/
namespace HyperliquidApi.GatewayRuns
open Runs OrderMaps

/-- The record under an id; a history begins with the latest observation. -/
def recordOf (k : String) : List Observation → Option OrderRec
  | [] => none
  | .registered k' rec :: earlier => if k' = k then some rec else recordOf k earlier
  | .ended k' :: earlier => if k' = k then none else recordOf k earlier
  | .threw k' _ :: earlier => if k' = k then none else recordOf k earlier
  | _ :: earlier => recordOf k earlier

/-- The id is the key of a record for the client order. -/
def RecordedFor (c k : String) (history : List Observation) : Prop :=
  ∃ rec, recordOf k history = some rec ∧ rec.clientOrderId = c

instance (c k : String) (history : List Observation) : Decidable (RecordedFor c k history) :=
  match h : recordOf k history with
  | none => isFalse fun ⟨_, hrec, _⟩ => by simp [h] at hrec
  | some rec =>
    decidable_of_iff (rec.clientOrderId = c)
      ⟨fun hc => ⟨rec, h, hc⟩, fun ⟨_, hrec, hc⟩ => by
        obtain rfl := Option.some.inj (h.symm.trans hrec)
        exact hc⟩

/-- The id that a client order is cancelled by. -/
def addressOf (c : String) : List Observation → Option String
  | [] => none
  | .registered k rec :: earlier => if rec.clientOrderId = c then some k else addressOf c earlier
  | .ended k :: earlier => if RecordedFor c k earlier then none else addressOf c earlier
  | .threw k _ :: earlier => if RecordedFor c k earlier then none else addressOf c earlier
  | _ :: earlier => addressOf c earlier

/-- The id was the client order's when it was looked up. -/
def LookedUp (history : List Observation) (c k : String) : Prop :=
  ∃ later earlier, history = later ++ earlier ∧ addressOf c earlier = some k

/-- The client order and the id that a cancel goes by, which is looked up again for the fills. -/
def Call.Aims (c k : String) : Call → Prop
  | .cancelling c' _ k' => c' = c ∧ k' = k
  | .gone c' _ k' => c' = c ∧ k' = k
  | .fetching c' _ k' found => c' = c ∧ (k' = k ∨ found = k)
  | .reemitting c' _ k' found _ _ => c' = c ∧ (k' = k ∨ found = k)
  | _ => False

lemma LookedUp.append {history : List Observation} {c k : String} (h : LookedUp history c k)
    (os : List Observation) : LookedUp (os ++ history) c k := by
  obtain ⟨later, earlier, rfl, haddress⟩ := h
  exact ⟨os ++ later, earlier, (List.append_assoc _ _ _).symm, haddress⟩

/-- Observations that neither register an order nor end one. -/
def Bystander : Observation → Prop
  | .registered _ _ => False
  | .ended _ => False
  | .threw _ _ => False
  | _ => True

lemma recordOf_append {os history : List Observation} (hos : ∀ o ∈ os, Bystander o) (k : String) :
    recordOf k (os ++ history) = recordOf k history := by
  induction os with
  | nil => rfl
  | cons o os ih =>
    have ho := hos o (.head _)
    have htail := ih fun o' hmem => hos o' (.tail _ hmem)
    cases o <;> first | exact ho.elim | exact htail

lemma addressOf_append {os history : List Observation} (hos : ∀ o ∈ os, Bystander o) (c : String) :
    addressOf c (os ++ history) = addressOf c history := by
  induction os with
  | nil => rfl
  | cons o os ih =>
    have ho := hos o (.head _)
    have htail := ih fun o' hmem => hos o' (.tail _ hmem)
    cases o <;> first | exact ho.elim | exact htail

structure Remembers (m : OrderMaps) (calls : ℕ → Call) (history : List Observation) : Prop where
  records : ∀ k, m.byCloid k = recordOf k history
  addresses : ∀ c, m.clientToCloid c = addressOf c history
  aims : ∀ t c k, (calls t).Aims c k → LookedUp history c k

namespace Remembers
variable {m : OrderMaps} {calls : ℕ → Call} {history : List Observation}

lemma setCall (h : Remembers m calls history) (t : ℕ) {call : Call}
    (hcall : ∀ c k, call.Aims c k → LookedUp history c k) :
    Remembers m (Function.update calls t call) history :=
  { h with
    aims := by
      intro t' c k haims
      by_cases ht : t' = t
      · rw [ht, Function.update_self] at haims
        exact hcall c k haims
      · rw [Function.update_of_ne ht] at haims
        exact h.aims t' c k haims }

lemma observe (h : Remembers m calls history) (os : List Observation)
    (hos : ∀ o ∈ os, Bystander o) : Remembers m calls (os ++ history) where
  records k := (h.records k).trans (recordOf_append hos k).symm
  addresses c := (h.addresses c).trans (addressOf_append hos c).symm
  aims t c k haims := (h.aims t c k haims).append os

/-- A lookup that finds an id. -/
lemma lookedUp (h : Remembers m calls history) {c : String} (hfound : m.cloidFor c ≠ "") :
    LookedUp history c (m.cloidFor c) := by
  cases hmapped : m.clientToCloid c with
  | none => simp [OrderMaps.cloidFor, hmapped] at hfound
  | some k =>
    refine ⟨[], history, rfl, ?_⟩
    rw [OrderMaps.cloidFor, hmapped, ← h.addresses, hmapped, Option.getD_some]

lemma register (h : Remembers m calls history) (k : String) (rec : OrderRec) :
    Remembers (m.register k rec) calls (.registered k rec :: history) where
  records k' := by
    rw [register_byCloid, recordOf]
    by_cases hk : k' = k
    · rw [hk, Function.update_self, if_pos rfl]
    · rw [Function.update_of_ne hk, if_neg (Ne.symm hk), h.records]
  addresses c := by
    rw [register_clientToCloid, addressOf]
    by_cases hc : c = rec.clientOrderId
    · rw [hc, Function.update_self, if_pos rfl]
    · rw [Function.update_of_ne hc, if_neg (Ne.symm hc), h.addresses]
  aims t c k' haims := (h.aims t c k' haims).append [.registered k rec]

/-- A drop forgets the record and, where there is one, the id of its client order. -/
lemma drop (h : Remembers m calls history) (k : String) {o : Observation}
    (hrecord : ∀ k', recordOf k' (o :: history) = if k = k' then none else recordOf k' history)
    (haddress : ∀ c, addressOf c (o :: history) =
      if RecordedFor c k history then none else addressOf c history) :
    Remembers (m.pruneCloid k) calls (o :: history) where
  records k' := by
    rw [pruneCloid_byCloid, hrecord]
    by_cases hk : k' = k
    · rw [hk, Function.update_self, if_pos rfl]
    · rw [Function.update_of_ne hk, if_neg (Ne.symm hk), h.records]
  addresses c := by
    rw [haddress, ← h.addresses]
    cases hrec : m.byCloid k with
    | none =>
      have hnone : ¬ RecordedFor c k history := by
        rintro ⟨rec, hrec', -⟩
        rw [← h.records, hrec] at hrec'
        cases hrec'
      rw [pruneCloid_of_none hrec, if_neg hnone]
    | some rec =>
      rw [pruneCloid_clientToCloid hrec]
      have hiff : RecordedFor c k history ↔ rec.clientOrderId = c := by
        unfold RecordedFor
        rw [← h.records, hrec]
        simp
      by_cases hc : c = rec.clientOrderId
      · rw [hc, Function.update_self, if_pos (by rw [← hc]; exact hiff.mpr hc.symm)]
      · rw [Function.update_of_ne hc, if_neg fun hrecorded => hc (hiff.mp hrecorded).symm]
  aims t c k' haims := (h.aims t c k' haims).append [o]

end Remembers

section
variable (lib : Library)

namespace Remembers
variable {s s' : System}

lemma io (h : Remembers s.gateway.orders s.calls s.history) (heff : IoEffect lib s s') :
    Remembers s'.gateway.orders s'.calls s'.history := by
  cases heff with
  | @reported report rest hio =>
    show Remembers (s.gateway.reportUpdate report.update).orders _ _
    rw [Gateway.reportUpdate_orders]
    exact h.observe [.reported report.cloid report.update] (by simp [Bystander])
  | @pruned cloid rest hio => exact h.drop cloid (fun _ => rfl) (fun _ => rfl)
  | _ => exact h

lemma receive (h : Remembers s.gateway.orders s.calls s.history) (json : Json) :
    Remembers (s.receive lib json).gateway.orders (s.receive lib json).calls
      (s.receive lib json).history := by
  unfold System.receive
  cases workOf lib json with
  | none => exact h
  | quote coin quote =>
    show Remembers (s.gateway.onBbo coin quote).orders _ _
    rw [Gateway.onBbo_orders]
    exact h
  | orders entries => exact h
  | fills entries =>
    exact h.observe (s.arrivals entries) (fun o hmem => by
      obtain ⟨k, entry, rfl, _⟩ := mem_arrivals hmem
      simp [Bystander])

lemma step {a : Action} (h : Remembers s.gateway.orders s.calls s.history)
    (hs : step lib s a = some s') : Remembers s'.gateway.orders s'.calls s'.history := by
  cases effect_of_step lib hs with
  | drawn hcall =>
    have hsame : Remembers s.gateway.orders.fetchAdd s.calls s.history := { h with }
    exact hsame.setCall _ (by simp [Call.Aims])
  | @registered t cloid rec hcall => exact (h.register cloid rec).setCall t (by simp [Call.Aims])
  | @rejected t status cloid hcall hkind =>
    exact (h.setCall t (by simp [Call.Aims])).observe [.rejected cloid] (by simp [Bystander])
  | accepted hcall hkind => exact h.setCall _ (by simp [Call.Aims])
  | @refused t cloid reason hcall =>
    exact (h.drop cloid (fun _ => rfl) (fun _ => rfl)).setCall t (by simp [Call.Aims])
  | cancelUnknown hcall => exact h
  | @cancelSent t asset clientOrderId symbol hcall hfound =>
    apply h.setCall t
    rintro c k ⟨rfl, rfl⟩
    exact h.lookedUp hfound
  | @cancelGone t _ c symbol cloid hcall hgone =>
    exact h.setCall t fun c k haims => h.aims t c k (by simpa [Call.Aims, hcall] using haims)
  | cancelAnswered hcall => exact h.setCall _ (by simp [Call.Aims])
  | @reconciling t c symbol cloid hcall hcb hfound =>
    apply h.setCall t
    rintro c' k ⟨rfl, rfl | rfl⟩
    · exact h.aims t c cloid (by simp [Call.Aims, hcall])
    · exact h.lookedUp hfound
  | @unreconciled t c symbol cloid hcall hskip =>
    exact (h.setCall t (by simp [Call.Aims])).observe [.returned c cloid s.venueFills]
      (by simp [Bystander])
  | @fetched t c symbol cloid found hcall =>
    exact h.setCall t fun c k haims => h.aims t c k (by simpa [Call.Aims, hcall] using haims)
  | @reemitted t c symbol cloid found reply hcall =>
    exact (h.setCall t (by simp [Call.Aims])).observe [.returned c cloid reply]
      (by simp [Bystander])
  | @skipped t c symbol cloid found reply rest fill hcall hskip =>
    exact h.setCall t fun c k haims => h.aims t c k (by simpa [Call.Aims, hcall] using haims)
  | @reemits t c symbol cloid found reply rest fill hcall hfound htid =>
    exact h.setCall t fun c k haims => h.aims t c k (by simpa [Call.Aims, hcall] using haims)
  | failed hcall => exact h.setCall _ (by simp [Call.Aims])
  | traded => exact h
  | received hio => exact h.receive lib _
  | io heff => exact h.io lib heff

end Remembers

lemma remembers_of_run {orderUpdateCB fillCB quoteCB : Bool} {as : List Action} {s : System}
    (h : Run (step lib) anyStep (initial orderUpdateCB fillCB quoteCB) as s) :
    Remembers s.gateway.orders s.calls s.history := by
  apply Run.invariant (P := fun s => Remembers s.gateway.orders s.calls s.history) _ _ h
  · exact ⟨fun _ => rfl, fun _ => rfl, fun t c k haims => haims.elim⟩
  · exact fun s a s' ih _ hs => ih.step lib hs

/-- In every interleaving an id has its latest record until that is dropped, a client order has its
latest id until one of its records is dropped, and every cancel goes by the id that its client order
had when it was looked up. -/
theorem maps_follow_history {orderUpdateCB fillCB quoteCB : Bool} {as : List Action} {s : System}
    (h : Run (step lib) anyStep (initial orderUpdateCB fillCB quoteCB) as s) :
    (∀ k, s.gateway.orders.byCloid k = recordOf k s.history) ∧
    (∀ c, s.gateway.orders.clientToCloid c = addressOf c s.history) ∧
    ∀ t c k, (s.calls t).Aims c k → LookedUp s.history c k := by
  have hinv := remembers_of_run lib h
  exact ⟨hinv.records, hinv.addresses, hinv.aims⟩

/-- The event has the fill's data, and its client order has been looked up under the fill's id. -/
def Reemits (history : List Observation) (fill : UserFill) (event : Event) : Prop :=
  ∃ c symbol, event = .fill (System.reemission c symbol fill) ∧ fill.tid ≠ 0 ∧
    LookedUp history c fill.cloid

lemma Reemits.append {history : List Observation} {fill : UserFill} {event : Event}
    (h : Reemits history fill event) (os : List Observation) :
    Reemits (os ++ history) fill event := by
  obtain ⟨c, symbol, hevent, htid, hlooked⟩ := h
  exact ⟨c, symbol, hevent, htid, hlooked.append os⟩

end

/-- The same client order is submitted twice and the first order fills: the second is still
recorded and can no longer be cancelled. -/
theorem maps_follow_history_resubmitted : ∃ s,
    Run (step noNumbers) anyStep (initial true true true)
      (oneSubmit ++ ([.draw 0 1000 "a" "BTC" 2, .register 0, .receive filledMessage, .io, .io,
        .io] : List Action))
      s ∧
    recordOf (formatCloid 1000 2) s.history = some ⟨"a", "BTC", 2⟩ ∧
    addressOf "a" s.history = none ∧
    (∀ k, s.gateway.orders.byCloid k = recordOf k s.history) ∧
    (∀ c, s.gateway.orders.clientToCloid c = addressOf c s.history) ∧
    ∀ t c k, (s.calls t).Aims c k → LookedUp s.history c k := by
  refine (exists_run_of_execute (P := fun s =>
    recordOf (formatCloid 1000 2) s.history = some ⟨"a", "BTC", 2⟩ ∧ addressOf "a" s.history = none)
      (by decide +kernel)).imp fun s h => ⟨h.1, h.2.1, h.2.2, ?_⟩
  exact maps_follow_history _ h.1

end HyperliquidApi.GatewayRuns
