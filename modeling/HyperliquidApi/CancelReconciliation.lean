import HyperliquidApi.GatewayEffects

/-!
# Reconciliation at cancel

A cancel that learns that its order is gone fetches the account's fills and hands out the
order's own. It finds the order's id a second time, after a network round trip.
-/
namespace HyperliquidApi.GatewayRuns
open Runs

/-- The callback has received the fill, with its size, price and trade id, for the client order. -/
def Credited (p : Gateway) (clientOrderId : String) (fill : UserFill) : Prop :=
  ∃ symbol, .fill (System.reemission clientOrderId symbol fill) ∈ p.delivered

/-- Every cancel that has returned on a gone order has handed out the order's fills. -/
def CancelsReconcile (s : System) : Prop :=
  s.gateway.fillCB = true → ∀ clientOrderId cloid reply,
    .returned clientOrderId cloid reply ∈ s.history →
    ∀ fill ∈ reply, fill.cloid = cloid → fill.tid ≠ 0 → Credited s.gateway clientOrderId fill

/-- When the reconciliation looks the order up, the client id still leads to it. -/
def StillMapped (s : System) : Action → Prop
  | .reconcile t =>
    match s.calls t with
    | .gone clientOrderId _ cloid => s.gateway.fillCB = true →
      s.gateway.orders.clientToCloid clientOrderId = some cloid
    | _ => True
  | _ => True

instance (s : System) (a : Action) : Decidable (StillMapped s a) :=
  match a with
  | .reconcile t =>
    match h : s.calls t with
    | .gone clientOrderId _ cloid =>
      decidable_of_iff (s.gateway.fillCB = true →
        s.gateway.orders.clientToCloid clientOrderId = some cloid) (by simp [StillMapped, h])
    | .idle | .naming _ _ | .placing _ | .refused _ _ | .cancelling _ _ _ | .fetching _ _ _ _
    | .reemitting _ _ _ _ _ _ => isTrue (by simp [StillMapped, h])
  | .draw _ _ _ _ _ | .register _ | .placed _ _ | .prune _ | .cancel _ _ _ _ | .cancelled _ _
  | .fetched _ | .reemit _ | .fail _ | .trade _ | .receive _ | .io => isTrue trivial

/-- What a cancel under way has established. -/
def OnTrack (p : Gateway) : Call → Prop
  | .cancelling _ _ cloid => cloid ≠ ""
  | .gone _ _ cloid => cloid ≠ ""
  | .fetching _ _ cloid found => found = cloid
  | .reemitting clientOrderId _ cloid found reply rest => found = cloid ∧
    ∀ fill ∈ reply, fill.cloid = cloid → fill.tid ≠ 0 →
      fill ∈ rest ∨ Credited p clientOrderId fill
  | _ => True

structure CancelInv (s : System) : Prop where
  onTrack : ∀ t, OnTrack s.gateway (s.calls t)
  reconciled : CancelsReconcile s

lemma Credited.mono {p p' : Gateway} {clientOrderId : String} {fill : UserFill}
    (h : Credited p clientOrderId fill) (hdel : p.delivered ⊆ p'.delivered) :
    Credited p' clientOrderId fill := by
  obtain ⟨symbol, hmem⟩ := h
  exact ⟨symbol, hdel hmem⟩

lemma OnTrack.mono {p p' : Gateway} {call : Call} (h : OnTrack p call)
    (hdel : p.delivered ⊆ p'.delivered) : OnTrack p' call := by
  cases call with
  | reemitting clientOrderId symbol cloid found reply rest =>
    refine ⟨h.1, ?_⟩
    intro fill hmem hcloid htid
    rcases h.2 fill hmem hcloid htid with hrest | hcredited
    · exact .inl hrest
    · exact .inr (hcredited.mono hdel)
  | _ => exact h

/-- A step of one thread: its call moves on, the callbacks only receive more, and what it
returns with is reconciled. -/
lemma CancelInv.move {s s' : System} (h : CancelInv s) {t : ℕ} {call : Call}
    (hcalls : s'.calls = Function.update s.calls t call)
    (hcb : s'.gateway.fillCB = s.gateway.fillCB)
    (hdel : s.gateway.delivered ⊆ s'.gateway.delivered) (hcall : OnTrack s'.gateway call)
    (hreturned : ∀ clientOrderId cloid reply, .returned clientOrderId cloid reply ∈ s'.history →
      .returned clientOrderId cloid reply ∈ s.history ∨ (s.gateway.fillCB = true →
        ∀ fill ∈ reply, fill.cloid = cloid → fill.tid ≠ 0 →
          Credited s'.gateway clientOrderId fill)) : CancelInv s' := by
  constructor
  · intro t'
    rw [hcalls]
    by_cases ht : t' = t
    · subst ht
      simpa using hcall
    · simpa [ht] using (h.onTrack t').mono hdel
  · intro hset clientOrderId cloid reply hmem
    rw [hcb] at hset
    rcases hreturned clientOrderId cloid reply hmem with hold | hnew
    · intro fill hfill hcloid htid
      exact (h.reconciled hset clientOrderId cloid reply hold fill hfill hcloid htid).mono hdel
    · exact hnew hset

/-- A step of the stream's thread or of the environment. -/
lemma CancelInv.frame {s s' : System} (h : CancelInv s) (hcalls : s'.calls = s.calls)
    (hcb : s'.gateway.fillCB = s.gateway.fillCB)
    (hdel : s.gateway.delivered ⊆ s'.gateway.delivered)
    (hreturned : ∀ clientOrderId cloid reply, .returned clientOrderId cloid reply ∈ s'.history →
      .returned clientOrderId cloid reply ∈ s.history) : CancelInv s' := by
  have hstays : s'.calls = Function.update s.calls 0 (s.calls 0) := by
    rw [hcalls, Function.update_eq_self]
  apply h.move hstays hcb hdel ((h.onTrack 0).mono hdel)
  intro clientOrderId cloid reply hmem
  exact .inl (hreturned clientOrderId cloid reply hmem)

section
variable (lib : Library)

lemma CancelInv.receive {s : System} (h : CancelInv s) (json : Json) :
    CancelInv (s.receive lib json) := by
  unfold System.receive
  cases workOf lib json with
  | none => exact h
  | quote coin bbo =>
    exact h.frame rfl (by simp) (s.gateway.delivered_subset_onBbo coin bbo) (fun _ _ _ hm => hm)
  | orders entries => exact h.frame rfl rfl (fun _ hx => hx) (fun _ _ _ hm => hm)
  | fills entries =>
    refine h.frame rfl rfl (fun _ hx => hx) ?_
    intro clientOrderId cloid reply hm
    rcases List.mem_append.mp hm with hnew | hold
    · obtain ⟨entry, _, ho⟩ := List.mem_filterMap.mp hnew
      split at ho
      · split_ifs at ho
        cases ho
      · cases ho
    · exact hold

lemma CancelInv.ioStep {s s' : System} (h : CancelInv s) (hs : IoEffect lib s s') :
    CancelInv s' := by
  have hkept : ∀ io, CancelInv { s with io := io } := fun _ =>
    h.frame rfl rfl (fun _ hx => hx) (fun _ _ _ hm => hm)
  cases hs with
  | ordersDone => exact hkept _
  | orderUnreadable => exact hkept _
  | orderIgnored => exact hkept _
  | orderRead => exact hkept _
  | @reported report rest =>
    refine h.frame rfl (by simp) (s.gateway.delivered_subset_reportUpdate report.update) ?_
    simp
  | pruned =>
    refine h.frame rfl rfl (fun _ hx => hx) ?_
    simp
  | fillsDone => exact hkept _
  | fillUnheard => exact hkept _
  | fillUnreadable => exact hkept _
  | fillIgnored => exact hkept _
  | fillRead => exact hkept _
  | handed => exact h.frame rfl rfl (List.subset_append_left _ _) (fun _ _ _ hm => hm)

/-- A call moves on without touching the gateway or returning. -/
lemma CancelInv.setCall {s : System} (h : CancelInv s) (t : ℕ) {call : Call}
    (hcall : OnTrack s.gateway call) : CancelInv (s.setCall t call) :=
  h.move (t := t) rfl rfl (fun _ hx => hx) hcall (fun _ _ _ hm => .inl hm)

lemma CancelInv.observe {s : System} (h : CancelInv s) {o : Observation}
    (ho : ∀ clientOrderId cloid reply, o ≠ .returned clientOrderId cloid reply) :
    CancelInv (s.observe o) := by
  refine h.frame rfl rfl (fun _ hx => hx) ?_
  intro clientOrderId cloid reply hm
  rcases List.mem_cons.mp hm with heq | hm
  · exact absurd heq.symm (ho clientOrderId cloid reply)
  · exact hm

/-- The second lookup fails only when nothing is owed. -/
lemma CancelInv.unreconciled {s : System} {t : ℕ} {clientOrderId symbol cloid : String}
    (h : CancelInv s) (hok : StillMapped s (.reconcile t))
    (hcall : s.calls t = .gone clientOrderId symbol cloid)
    (hskip : s.gateway.fillCB = true → s.gateway.orders.cloidFor clientOrderId = "") :
    CancelInv ((s.setCall t .idle).observe (.returned clientOrderId cloid s.venueFills)) := by
  simp only [StillMapped, hcall] at hok
  have hcloid : cloid ≠ "" := by simpa [OnTrack, hcall] using h.onTrack t
  refine h.move (t := t) rfl rfl (fun _ hx => hx) trivial ?_
  intro c k reply hm
  right
  intro hset
  have hempty := hskip hset
  rw [OrderMaps.cloidFor, hok hset] at hempty
  exact absurd hempty hcloid

lemma CancelInv.reemitted {s : System} {t : ℕ} {clientOrderId symbol cloid found : String}
    {reply : List UserFill} (h : CancelInv s)
    (hcall : s.calls t = .reemitting clientOrderId symbol cloid found reply []) :
    CancelInv ((s.setCall t .idle).observe (.returned clientOrderId cloid reply)) := by
  have htrack := h.onTrack t
  simp only [hcall, OnTrack, List.not_mem_nil, false_or] at htrack
  refine h.move (t := t) rfl rfl (fun _ hx => hx) trivial ?_
  intro c k reply' hm
  rcases List.mem_cons.mp hm with heq | hm
  · cases heq
    exact .inr fun _ => htrack.2
  · exact .inl hm

/-- A fill of another order, or one that has no trade id, is not owed. -/
lemma CancelInv.skipped {s : System} {t : ℕ} {clientOrderId symbol cloid found : String}
    {reply rest : List UserFill} {fill : UserFill} (h : CancelInv s)
    (hcall : s.calls t = .reemitting clientOrderId symbol cloid found reply (fill :: rest))
    (hskip : fill.cloid ≠ found ∨ fill.tid = 0) :
    CancelInv (s.setCall t (.reemitting clientOrderId symbol cloid found reply rest)) := by
  have htrack := h.onTrack t
  simp only [hcall, OnTrack] at htrack
  obtain ⟨hfound, hreply⟩ := htrack
  refine h.setCall t ⟨hfound, ?_⟩
  intro other hmem hcloid htid
  rcases hreply other hmem hcloid htid with hrest | hcredited
  · rcases List.mem_cons.mp hrest with rfl | hrest
    · rcases hskip with hforeign | hzero
      · exact absurd (hcloid.trans hfound.symm) hforeign
      · exact absurd hzero htid
    · exact .inl hrest
  · exact .inr hcredited

lemma CancelInv.reemits {s : System} {t : ℕ} {clientOrderId symbol cloid found : String}
    {reply rest : List UserFill} {fill : UserFill} (h : CancelInv s)
    (hcall : s.calls t = .reemitting clientOrderId symbol cloid found reply (fill :: rest)) :
    CancelInv { s.setCall t (.reemitting clientOrderId symbol cloid found reply rest) with
      gateway := s.gateway.deliver (.fill (System.reemission clientOrderId symbol fill)) } := by
  have htrack := h.onTrack t
  simp only [hcall, OnTrack] at htrack
  obtain ⟨hfound, hreply⟩ := htrack
  have hdel : s.gateway.delivered ⊆ (s.gateway.deliver
      (.fill (System.reemission clientOrderId symbol fill))).delivered :=
    List.subset_append_left _ _
  refine h.move (t := t) rfl rfl hdel ⟨hfound, ?_⟩ (fun _ _ _ hm => .inl hm)
  intro other hmem hcloid htid
  rcases hreply other hmem hcloid htid with hrest | hcredited
  · rcases List.mem_cons.mp hrest with rfl | hrest
    · exact .inr ⟨symbol, by simp⟩
    · exact .inl hrest
  · exact .inr (hcredited.mono hdel)

lemma CancelInv.step {s s' : System} {a : Action} (h : CancelInv s) (hok : StillMapped s a)
    (hs : Effect lib s a s') : CancelInv s' := by
  cases hs with
  | drawn hcall => exact h.move rfl rfl (fun _ hx => hx) trivial (fun _ _ _ hm => .inl hm)
  | @registered t k rec hcall =>
    have hmoved : CancelInv
        ({ s with gateway := { s.gateway with orders := s.gateway.orders.register k rec } }.setCall
          t (.placing k)) :=
      h.move rfl rfl (fun _ hx => hx) trivial (fun _ _ _ hm => .inl hm)
    exact hmoved.observe (by simp)
  | @rejected t status cloid hcall hkind =>
    have hmoved : CancelInv (s.setCall t (.refused cloid status.error)) := h.setCall t trivial
    exact hmoved.observe (by simp)
  | accepted hcall hkind => exact h.setCall _ trivial
  | @refused t k reason hcall =>
    have hmoved : CancelInv
        ({ s with gateway := s.gateway.pruneCloid k }.setCall t .idle) :=
      h.move rfl rfl (fun _ hx => hx) trivial (fun _ _ _ hm => .inl hm)
    exact hmoved.observe (by simp)
  | cancelUnknown hcall => exact h
  | cancelSent hcall hfound => exact h.setCall _ hfound
  | @cancelGone t _ _ _ _ hcall hgone =>
    exact h.setCall t (by simpa [OnTrack, hcall] using h.onTrack t)
  | cancelAnswered hcall => exact h.setCall _ trivial
  | @reconciling t clientOrderId _ cloid hcall hcb hfound =>
    simp only [StillMapped, hcall] at hok
    apply h.setCall t
    simp [OnTrack, OrderMaps.cloidFor, hok hcb]
  | unreconciled hcall hskip => exact h.unreconciled hok hcall hskip
  | @fetched t _ _ cloid found hcall =>
    have hfound : found = cloid := by simpa [OnTrack, hcall] using h.onTrack t
    refine h.setCall t ⟨hfound, ?_⟩
    intro fill hmem _ _
    exact .inl hmem
  | reemitted hcall => exact h.reemitted hcall
  | skipped hcall hskip => exact h.skipped hcall hskip
  | reemits hcall hfound htid => exact h.reemits hcall
  | failed hcall => exact h.setCall _ trivial
  | traded => exact h.frame rfl rfl (fun _ hx => hx) (fun _ _ _ hm => hm)
  | received hio => exact h.receive lib _
  | io hio => exact h.ioStep lib hio

end

lemma cancelInv_initial (orderUpdateCB fillCB quoteCB : Bool) :
    CancelInv (initial orderUpdateCB fillCB quoteCB) where
  onTrack _ := trivial
  reconciled := by
    intro _ c k reply hm
    cases hm

/-- Cancels reconcile in runs that keep the client id of a gone order until the reconciliation
has looked it up. -/
theorem cancels_reconcile {lib : Library} {orderUpdateCB fillCB quoteCB : Bool}
    {as : List Action} {s : System}
    (h : Run (step lib) StillMapped (initial orderUpdateCB fillCB quoteCB) as s) :
    CancelsReconcile s := by
  have hinv : CancelInv s := by
    apply Run.invariant (cancelInv_initial orderUpdateCB fillCB quoteCB) _ h
    intro s a s' hs hok hstep
    exact hs.step lib hok (effect_of_step lib hstep)
  exact hinv.reconciled

def goneStatus : ActionStatus := ⟨.error, "Order was never placed, already canceled, or filled."⟩

/-- The order is filled while the cancel is on its way; the reply comes before the order update. -/
theorem cancels_reconcile_early_reply : ∃ s, Run (step noNumbers) StillMapped
    (initial true true true) (oneSubmit ++ ([.cancel 1 0 "a" "BTC",
      .trade [⟨1, 1, 8, ownCloid, true⟩], .cancelled 1 goneStatus, .reconcile 1, .fetched 1,
      .reemit 1, .reemit 1] : List Action)) s ∧
    CancelsReconcile s := by
  refine (exists_run_of_execute (P := fun _ => True) (by decide +kernel)).imp fun s h => ⟨h.1, ?_⟩
  exact cancels_reconcile h.1

/-- The order update is handled while the cancel is on its way, so the second lookup finds
nothing and the fill that ended the order is not handed out in any form. -/
theorem cancel_misses_fill_after_update : ∃ s, Run (step noNumbers) anyStep
    (initial true true true) (oneSubmit ++ ([.cancel 1 0 "a" "BTC",
      .trade [⟨1, 1, 8, ownCloid, true⟩], .receive filledMessage, .io, .io, .io, .io,
      .cancelled 1 goneStatus, .reconcile 1] : List Action)) s ∧
    (∀ event, .fill event ∉ s.gateway.delivered) ∧ ¬ CancelsReconcile s := by
  obtain ⟨s, hs, hcb, hreturned, hdelivered⟩ : ∃ s, Run (step noNumbers) anyStep
      (initial true true true) (oneSubmit ++ ([.cancel 1 0 "a" "BTC",
        .trade [⟨1, 1, 8, ownCloid, true⟩], .receive filledMessage, .io, .io, .io, .io,
        .cancelled 1 goneStatus, .reconcile 1] : List Action)) s ∧ s.gateway.fillCB = true ∧
      .returned "a" ownCloid [⟨1, 1, 8, ownCloid, true⟩] ∈ s.history ∧
      ∀ event, .fill event ∉ s.gateway.delivered := by
    refine ⟨_, run_of_execute rfl, rfl, .head _, ?_⟩
    rintro event (_ | ⟨_, _ | _⟩)
  refine ⟨s, hs, hdelivered, ?_⟩
  intro hreconcile
  obtain ⟨symbol, hmem⟩ := hreconcile hcb "a" ownCloid _ hreturned
    ⟨1, 1, 8, ownCloid, true⟩ (.head _) rfl (by decide)
  exact hdelivered _ hmem

end HyperliquidApi.GatewayRuns
