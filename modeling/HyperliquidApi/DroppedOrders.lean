import HyperliquidApi.CancelReconciliation
import HyperliquidApi.TerminalOutcomes

/-!
# Entries of ended orders

The stream's thread drops an order after its terminal update, and a submit after its rejection. A
cancel that is told its order is gone learns the end of the order as well, but drops nothing.
-/
namespace HyperliquidApi.GatewayRuns
open Runs OrderMaps

/-- The stream's thread has handled a terminal update of the order, or its submit has handled its
rejection. -/
def Processed (s : System) (k : String) : Prop :=
  (∃ update, .reported k update ∈ s.history ∧ update.state ≠ .accepted ∧
    ∀ rest, s.io ≠ .prune k rest) ∨
  .rejected k ∈ s.history ∧ ∀ t reason, s.calls t ≠ .refused k reason

/-- A cancel has returned on this order being gone. -/
def FoundGone (history : List Observation) (k : String) : Prop :=
  ∃ clientOrderId reply, .returned clientOrderId k reply ∈ history

/-- The gateway knows that the order has ended. -/
def Learnt (s : System) (k : String) : Prop := Processed s k ∨ FoundGone s.history k

/-- There are no entries of orders whose end has been learnt. -/
def DeadDropped (s : System) : Prop :=
  ∀ k, Learnt s k →
    s.gateway.orders.byCloid k = none ∧ ∀ c, s.gateway.orders.clientToCloid c ≠ some k

section
variable (lib : Library)

/-- The step leaves no such entries. -/
def LeavesDropped (s : System) (a : Action) : Prop := ∀ s', step lib s a = some s' → DeadDropped s'

end

/-- A cancel returns on a gone order whose end another path has handled before. -/
def ProcessedBefore (s : System) : Action → Prop
  | .reconcile t => ∀ clientOrderId symbol k, s.calls t = .gone clientOrderId symbol k →
      ¬ (s.gateway.fillCB = true ∧ s.gateway.orders.cloidFor clientOrderId ≠ "") → Processed s k
  | .reemit t => ∀ clientOrderId symbol k found reply,
      s.calls t = .reemitting clientOrderId symbol k found reply [] → Processed s k
  | _ => True

/-- The order has been dropped: after a terminal update or by its own submit. -/
def Ends (k : String) : Observation → Prop
  | .ended k' => k' = k
  | .threw k' _ => k' = k
  | _ => False

def Ended (history : List Observation) (k : String) : Prop := ∃ o ∈ history, Ends k o

/-- The call is between the lookup and the end of a cancel of this order. -/
def Call.Cancels (k : String) : Call → Prop
  | .cancelling _ _ k' => k' = k
  | .gone _ _ k' => k' = k
  | .fetching _ _ k' _ => k' = k
  | .reemitting _ _ k' _ _ _ => k' = k
  | _ => False

/-- In runs with new ids, registered orders are those that have not ended. -/
structure EntryInv (m : OrderMaps) (calls : ℕ → Call) (history : List Observation) : Prop where
  linked : ∀ c k, m.clientToCloid c = some k →
    ∃ rec, m.byCloid k = some rec ∧ rec.clientOrderId = c
  dropped : ∀ k, Ended history k → Registered history k ∧ m.byCloid k = none
  ended : ∀ k, Registered history k → m.byCloid k = none → Ended history k
  cancels : ∀ t k, (calls t).Cancels k → Registered history k
  found : ∀ k, FoundGone history k → Registered history k

lemma Ended.mono {history history' : List Observation} {k : String} (h : Ended history k)
    (hsub : history ⊆ history') : Ended history' k := by
  obtain ⟨o, hmem, ho⟩ := h
  exact ⟨o, hsub hmem, ho⟩

lemma ended_append {os history : List Observation} {k : String} (hos : ∀ o ∈ os, ¬ Ends k o) :
    Ended (os ++ history) k ↔ Ended history k := by
  constructor
  · rintro ⟨o, hmem, ho⟩
    exact ⟨o, (List.mem_append.mp hmem).resolve_left fun hnew => hos o hnew ho, ho⟩
  · exact fun h => h.mono (List.subset_append_right os history)

lemma ended_cons {o : Observation} {history : List Observation} {k : String} (ho : ¬ Ends k o) :
    Ended (o :: history) k ↔ Ended history k := by
  have hos : ∀ o' ∈ [o], ¬ Ends k o' := fun o' h => List.mem_singleton.mp h ▸ ho
  exact ended_append hos

lemma foundGone_append {os history : List Observation} {k : String}
    (hos : ∀ clientOrderId reply, .returned clientOrderId k reply ∉ os) :
    FoundGone (os ++ history) k ↔ FoundGone history k := by
  constructor
  · rintro ⟨clientOrderId, reply, hmem⟩
    exact ⟨clientOrderId, reply, (List.mem_append.mp hmem).resolve_left (hos clientOrderId reply)⟩
  · rintro ⟨clientOrderId, reply, hmem⟩
    exact ⟨clientOrderId, reply, List.mem_append_right os hmem⟩

namespace EntryInv
variable {m : OrderMaps} {calls : ℕ → Call} {history : List Observation}

lemma setCall (h : EntryInv m calls history) (t : ℕ) {call : Call}
    (hcall : ∀ k, call.Cancels k → Registered history k) :
    EntryInv m (Function.update calls t call) history :=
  { h with
    cancels := by
      intro t' k hcancels
      by_cases ht : t' = t
      · rw [ht, Function.update_self] at hcancels
        exact hcall k hcancels
      · rw [Function.update_of_ne ht] at hcancels
        exact h.cancels t' k hcancels }

/-- Observations that register nothing and end nothing; a cancel that returns has its order. -/
lemma observe (h : EntryInv m calls history) (os : List Observation)
    (hos : ∀ o ∈ os, (∀ k rec, o ≠ .registered k rec) ∧ (∀ k, ¬ Ends k o) ∧
      ∀ c k reply, o = .returned c k reply → Registered history k) :
    EntryInv m calls (os ++ history) := by
  have hmore : ∀ k, Registered history k → Registered (os ++ history) k :=
    fun k hreg => hreg.mono (List.subset_append_right os history)
  have hold : ∀ k, Registered (os ++ history) k → Registered history k := by
    rintro k ⟨rec, hrec⟩
    exact ⟨rec, (List.mem_append.mp hrec).resolve_left fun hnew => (hos _ hnew).1 k rec rfl⟩
  have hsame : ∀ k, Ended (os ++ history) k ↔ Ended history k :=
    fun k => ended_append fun o hnew => (hos o hnew).2.1 k
  exact
    { linked := h.linked
      dropped := fun k hended => by
        obtain ⟨hreg, hnone⟩ := h.dropped k ((hsame k).mp hended)
        exact ⟨hmore k hreg, hnone⟩
      ended := fun k hreg hnone => (hsame k).mpr (h.ended k (hold k hreg) hnone)
      cancels := fun t k hcancels => hmore k (h.cancels t k hcancels)
      found := fun k hfound => by
        obtain ⟨c, reply, hmem⟩ := hfound
        rcases List.mem_append.mp hmem with hnew | hmem
        · exact hmore k ((hos _ hnew).2.2 c k reply rfl)
        · exact hmore k (h.found k ⟨c, reply, hmem⟩) }

lemma pruneCloid_linked (h : EntryInv m calls history) (k : String) :
    ∀ c k', (m.pruneCloid k).clientToCloid c = some k' →
      ∃ rec, (m.pruneCloid k).byCloid k' = some rec ∧ rec.clientOrderId = c := by
  intro c k' hc
  cases hrec : m.byCloid k with
  | none =>
    rw [pruneCloid_of_none hrec] at hc ⊢
    exact h.linked c k' hc
  | some rec =>
    rw [pruneCloid_clientToCloid hrec] at hc
    have hother : c ≠ rec.clientOrderId := by
      rintro rfl
      rw [Function.update_self] at hc
      cases hc
    rw [Function.update_of_ne hother] at hc
    obtain ⟨rec', hrec', hclient⟩ := h.linked c k' hc
    refine ⟨rec', pruneCloid_eq_some.mpr ⟨?_, hrec'⟩, hclient⟩
    rintro rfl
    rw [hrec] at hrec'
    obtain rfl := Option.some.inj hrec'
    exact hother hclient.symm

/-- The record is dropped and the end noted. -/
lemma drop (h : EntryInv m calls history) {k : String} (hreg : Registered history k)
    {o : Observation} (ho : ∀ k', Ends k' o ↔ k' = k) :
    EntryInv (m.pruneCloid k) calls (o :: history) := by
  have hself : Ends k o := (ho k).mpr rfl
  have hnotNew : ∀ k' rec, o ≠ .registered k' rec := by
    rintro k' rec rfl
    exact hself
  have hnotBack : ∀ c k' reply, o ≠ .returned c k' reply := by
    rintro c k' reply rfl
    exact hself
  have hsame : ∀ k', Registered (o :: history) k' ↔ Registered history k' :=
    fun k' => registered_cons (hnotNew k')
  constructor
  · exact h.pruneCloid_linked k
  · rintro k' ⟨o', hmem, ho'⟩
    rcases List.mem_cons.mp hmem with rfl | hmem
    · obtain rfl := (ho k').mp ho'
      exact ⟨(hsame k').mpr hreg, by simp⟩
    · obtain ⟨hreg', hnone⟩ := h.dropped k' ⟨o', hmem, ho'⟩
      exact ⟨(hsame k').mpr hreg', pruneCloid_eq_none.mpr (.inr hnone)⟩
  · intro k' hreg' hnone
    rcases pruneCloid_eq_none.mp hnone with rfl | hnone
    · exact ⟨o, .head _, hself⟩
    · exact (h.ended k' ((hsame k').mp hreg') hnone).mono (List.subset_cons_self _ _)
  · exact fun t k' hcancels => (hsame k').mpr (h.cancels t k' hcancels)
  · rintro k' ⟨c, reply, hmem⟩
    refine (hsame k').mpr (h.found k' ⟨c, reply, ?_⟩)
    exact (List.mem_cons.mp hmem).resolve_left fun heq => hnotBack c k' reply heq.symm

/-- A new id is registered. -/
lemma register (h : EntryInv m calls history) {k : String} (hnew : ¬ Registered history k)
    (hfree : m.byCloid k = none) (rec : OrderRec) :
    EntryInv (m.register k rec) calls (.registered k rec :: history) := by
  have hmore : ∀ k', Registered history k' → Registered (.registered k rec :: history) k' :=
    fun k' hreg => hreg.mono (List.subset_cons_self _ _)
  constructor
  · intro c k' hc
    by_cases hclient : c = rec.clientOrderId
    · subst hclient
      rw [register_clientToCloid, Function.update_self] at hc
      obtain rfl := Option.some.inj hc
      exact ⟨rec, by simp, rfl⟩
    · rw [register_clientToCloid, Function.update_of_ne hclient] at hc
      obtain ⟨rec', hrec', hclient'⟩ := h.linked c k' hc
      have hk : k' ≠ k := by
        rintro rfl
        rw [hfree] at hrec'
        cases hrec'
      exact ⟨rec', by simp [hk, hrec'], hclient'⟩
  · intro k' hended
    have hended' : Ended history k' := (ended_cons (by simp [Ends])).mp hended
    obtain ⟨hreg, hnone⟩ := h.dropped k' hended'
    have hk : k' ≠ k := by
      rintro rfl
      exact hnew hreg
    exact ⟨hmore k' hreg, by simp [hk, hnone]⟩
  · rintro k' ⟨rec', hmem⟩ hnone
    by_cases hk : k' = k
    · simp [hk] at hnone
    · rcases List.mem_cons.mp hmem with heq | hmem
      · exact absurd (Observation.registered.inj heq).1 hk
      · have hended := h.ended k' ⟨rec', hmem⟩ (by simpa [hk] using hnone)
        exact hended.mono (List.subset_cons_self _ _)
  · exact fun t k' hcancels => hmore k' (h.cancels t k' hcancels)
  · rintro k' ⟨c, reply, hmem⟩
    exact hmore k' (h.found k' ⟨c, reply, (List.mem_cons.mp hmem).resolve_left (by simp)⟩)

end EntryInv

section
variable (lib : Library)

namespace EntryInv
variable {s s' : System}

lemma io (h : EntryInv s.gateway.orders s.calls s.history)
    (hout : OutcomeInv s.gateway.orders s.io s.calls s.history) (heff : IoEffect lib s s') :
    EntryInv s'.gateway.orders s'.calls s'.history := by
  cases heff with
  | @reported report rest hio =>
    show EntryInv (s.gateway.reportUpdate report.update).orders _ _
    rw [Gateway.reportUpdate_orders]
    exact h.observe [.reported report.cloid report.update] (by simp [Ends])
  | @pruned cloid rest hio =>
    obtain ⟨o, hmem, ho⟩ := hout.pruning cloid rest hio
    have hreg := (hout.ended cloid o hmem ho).1
    exact h.drop hreg (by simp [Ends, eq_comm])
  | _ => exact h

lemma receive (h : EntryInv s.gateway.orders s.calls s.history) (json : Json) :
    EntryInv (s.receive lib json).gateway.orders (s.receive lib json).calls
      (s.receive lib json).history := by
  unfold System.receive
  cases workOf lib json with
  | none => exact h
  | quote coin quote =>
    show EntryInv (s.gateway.onBbo coin quote).orders _ _
    rw [Gateway.onBbo_orders]
    exact h
  | orders entries => exact h
  | fills entries =>
    exact h.observe (s.arrivals entries) (fun o hmem => by
      obtain ⟨k, entry, rfl, _⟩ := mem_arrivals hmem
      simp [Ends])

lemma step {a : Action} (h : EntryInv s.gateway.orders s.calls s.history)
    (hout : OutcomeInv s.gateway.orders s.io s.calls s.history) (hnew : NewIds s a)
    (hs : step lib s a = some s') : EntryInv s'.gateway.orders s'.calls s'.history := by
  cases effect_of_step lib hs with
  | drawn hcall =>
    have hsame : EntryInv s.gateway.orders.fetchAdd s.calls s.history := { h with }
    exact hsame.setCall _ (by simp [Call.Cancels])
  | @registered t cloid rec hcall =>
    have hunknown := hnew cloid rec hcall
    have hfree : s.gateway.orders.byCloid cloid = none := by
      by_contra hreg
      obtain ⟨rec', hrec⟩ := Option.ne_none_iff_exists'.mp hreg
      exact hunknown (hout.known cloid rec' hrec)
    exact (h.register hunknown hfree rec).setCall t (by simp [Call.Cancels])
  | @rejected t status cloid hcall hkind =>
    exact (h.setCall t (by simp [Call.Cancels])).observe [.rejected cloid] (by simp [Ends])
  | accepted hcall hkind => exact h.setCall _ (by simp [Call.Cancels])
  | @refused t cloid reason hcall =>
    have hreg := (hout.holding t cloid (by simp [Call.Holds, hcall])).1
    exact (h.drop hreg (by simp [Ends, eq_comm])).setCall t (by simp [Call.Cancels])
  | cancelUnknown hcall => exact h
  | @cancelSent t asset clientOrderId symbol hcall hfound =>
    apply h.setCall t
    rintro k rfl
    cases hmapped : s.gateway.orders.clientToCloid clientOrderId with
    | none => simp [OrderMaps.cloidFor, hmapped] at hfound
    | some k =>
      obtain ⟨rec, hrec, _⟩ := h.linked clientOrderId k hmapped
      rw [OrderMaps.cloidFor, hmapped]
      exact hout.known k rec hrec
  | @cancelGone t _ _ _ cloid hcall hgone =>
    exact h.setCall t fun k hk => h.cancels t k (by simpa [Call.Cancels, hcall] using hk)
  | cancelAnswered hcall => exact h.setCall _ (by simp [Call.Cancels])
  | @reconciling t _ _ cloid hcall hcb hfound =>
    exact h.setCall t fun k hk => h.cancels t k (by simpa [Call.Cancels, hcall] using hk)
  | @unreconciled t clientOrderId symbol cloid hcall hskip =>
    have hreg := h.cancels t cloid (by simp [Call.Cancels, hcall])
    exact (h.setCall t (by simp [Call.Cancels])).observe
      [.returned clientOrderId cloid s.venueFills] (by simp [Ends, hreg])
  | @fetched t _ _ cloid found hcall =>
    exact h.setCall t fun k hk => h.cancels t k (by simpa [Call.Cancels, hcall] using hk)
  | @reemitted t clientOrderId symbol cloid found reply hcall =>
    have hreg := h.cancels t cloid (by simp [Call.Cancels, hcall])
    exact (h.setCall t (by simp [Call.Cancels])).observe [.returned clientOrderId cloid reply]
      (by simp [Ends, hreg])
  | @skipped t _ _ cloid _ _ _ _ hcall hskip =>
    exact h.setCall t fun k hk => h.cancels t k (by simpa [Call.Cancels, hcall] using hk)
  | @reemits t _ _ cloid _ _ _ _ hcall hfound htid =>
    exact h.setCall t fun k hk => h.cancels t k (by simpa [Call.Cancels, hcall] using hk)
  | failed hcall => exact h.setCall _ (by simp [Call.Cancels])
  | traded => exact h
  | received hio => exact h.receive lib _
  | io heff => exact h.io lib hout heff

lemma initial (orderUpdateCB fillCB quoteCB : Bool) :
    EntryInv (initial orderUpdateCB fillCB quoteCB).gateway.orders
      (initial orderUpdateCB fillCB quoteCB).calls
      (initial orderUpdateCB fillCB quoteCB).history := by
  constructor <;>
    simp [GatewayRuns.initial, OrderMaps.empty, Ended, FoundGone, Registered, Call.Cancels]

end EntryInv

/-- An observation of how an order goes on, not of what calls begin and return. -/
def Settles : Observation → Prop
  | .reported _ _ => True
  | .ended _ => True
  | .rejected _ => True
  | .threw _ _ => True
  | _ => False

/-- An end that has been observed is handled, or the thread that has observed it is about to. -/
structure ProcessInv (io : Io) (calls : ℕ → Call) (history : List Observation) : Prop where
  reported : ∀ k update, .reported k update ∈ history → update.state ≠ .accepted →
    .ended k ∈ history ∨ ∃ rest, io = .prune k rest
  reporting : ∀ report rest, io = .report report rest → .ended report.cloid ∉ history
  pruning : ∀ k rest, io = .prune k rest → .ended k ∉ history ∧
    ∃ update, .reported k update ∈ history ∧ update.state ≠ .accepted
  ended : ∀ k, .ended k ∈ history →
    ∃ update, .reported k update ∈ history ∧ update.state ≠ .accepted
  rejected : ∀ k, .rejected k ∈ history →
    (∃ error, .threw k error ∈ history) ∨ ∃ t reason, calls t = .refused k reason
  refused : ∀ t k reason, calls t = .refused k reason → .rejected k ∈ history
  threw : ∀ k error, .threw k error ∈ history → .rejected k ∈ history

namespace ProcessInv
variable {io : Io} {calls : ℕ → Call} {history : List Observation}

lemma observe (h : ProcessInv io calls history) (os : List Observation)
    (hos : ∀ o ∈ os, ¬ Settles o) : ProcessInv io calls (os ++ history) := by
  have hsame : ∀ o, Settles o → (o ∈ os ++ history ↔ o ∈ history) := by
    intro o ho
    rw [List.mem_append, or_iff_right fun hmem => hos o hmem ho]
  have hreported := fun k update => hsame (.reported k update) trivial
  have hended := fun k => hsame (.ended k) trivial
  have hrejected := fun k => hsame (.rejected k) trivial
  have hthrew := fun k error => hsame (.threw k error) trivial
  constructor
  · simpa only [hreported, hended] using h.reported
  · simpa only [hended] using h.reporting
  · simpa only [hreported, hended] using h.pruning
  · simpa only [hreported, hended] using h.ended
  · simpa only [hrejected, hthrew] using h.rejected
  · simpa only [hrejected] using h.refused
  · simpa only [hrejected, hthrew] using h.threw

/-- A call moves on that does not handle a rejection before or after. -/
lemma setCall (h : ProcessInv io calls history) (t : ℕ) {call : Call}
    (hbefore : ∀ k reason, calls t ≠ .refused k reason)
    (hafter : ∀ k reason, call ≠ .refused k reason) :
    ProcessInv io (Function.update calls t call) history :=
  { h with
    rejected := by
      intro k hmem
      rcases h.rejected k hmem with hthrew | ⟨t', reason, hcall⟩
      · exact .inl hthrew
      · have ht : t' ≠ t := by
          rintro rfl
          exact hbefore k reason hcall
        exact .inr ⟨t', reason, by rw [Function.update_of_ne ht, hcall]⟩
    refused := by
      intro t' k reason hcall
      by_cases ht : t' = t
      · rw [ht, Function.update_self] at hcall
        exact absurd hcall (hafter k reason)
      · rw [Function.update_of_ne ht] at hcall
        exact h.refused t' k reason hcall }

/-- The stream's thread goes on without having dropped anything. -/
lemma setIo (h : ProcessInv io calls history) {io' : Io} (hbefore : ∀ k rest, io ≠ .prune k rest)
    (hafter : ∀ k rest, io' ≠ .prune k rest)
    (hreporting : ∀ report rest, io' = .report report rest → .ended report.cloid ∉ history) :
    ProcessInv io' calls history :=
  { h with
    reported := by
      intro k update hmem hstate
      rcases h.reported k update hmem hstate with hended | ⟨rest, hio⟩
      · exact .inl hended
      · exact absurd hio (hbefore k rest)
    reporting := hreporting
    pruning := fun k rest hio => absurd hio (hafter k rest) }

/-- An update is reported, and its record dropped next where it is terminal. -/
lemma report (h : ProcessInv io calls history) {report : OrderReport} {rest : List Json}
    (hio : io = .report report rest)
    (hterminal : report.terminal = true ↔ report.update.state ≠ .accepted) :
    ProcessInv (if report.terminal then .prune report.cloid rest else .orders rest) calls
      (.reported report.cloid report.update :: history) := by
  constructor
  · intro k update hmem hstate
    rcases List.mem_cons.mp hmem with heq | hmem
    · obtain ⟨rfl, rfl⟩ := Observation.reported.inj heq
      exact .inr ⟨rest, if_pos (hterminal.mpr hstate)⟩
    · rcases h.reported k update hmem hstate with hended | ⟨rest', hio'⟩
      · exact .inl (.tail _ hended)
      · rw [hio] at hio'
        cases hio'
  · intro report' rest' hio'
    split_ifs at hio'
  · intro k rest' hio'
    split_ifs at hio' with hset
    obtain ⟨rfl, rfl⟩ := Io.prune.inj hio'
    refine ⟨?_, report.update, .head _, hterminal.mp hset⟩
    simpa using h.reporting report rest hio
  · intro k hmem
    obtain ⟨update, hupdate, hstate⟩ := h.ended k (by simpa using hmem)
    exact ⟨update, .tail _ hupdate, hstate⟩
  · simpa using h.rejected
  · simpa using h.refused
  · simpa using h.threw

lemma prune (h : ProcessInv io calls history) {k : String} {rest : List Json}
    (hio : io = .prune k rest) (rest' : List Json) :
    ProcessInv (.orders rest') calls (.ended k :: history) := by
  constructor
  · intro k' update hmem hstate
    rcases h.reported k' update (by simpa using hmem) hstate with hended | ⟨rest'', hio'⟩
    · exact .inl (.tail _ hended)
    · obtain ⟨rfl, -⟩ := Io.prune.inj (hio.symm.trans hio')
      exact .inl (.head _)
  · intro report rest'' hio'
    cases hio'
  · intro k' rest'' hio'
    cases hio'
  · intro k' hmem
    have hreported : ∃ update, .reported k' update ∈ history ∧ update.state ≠ .accepted := by
      rcases List.mem_cons.mp hmem with heq | hmem
      · obtain rfl := Observation.ended.inj heq
        exact (h.pruning k' rest hio).2
      · exact h.ended k' hmem
    obtain ⟨update, hupdate, hstate⟩ := hreported
    exact ⟨update, .tail _ hupdate, hstate⟩
  · simpa using h.rejected
  · simpa using h.refused
  · simpa using h.threw

/-- The venue rejects the order. -/
lemma reject (h : ProcessInv io calls history) {t : ℕ} {k : String} (hcall : calls t = .placing k)
    (reason : String) :
    ProcessInv io (Function.update calls t (.refused k reason)) (.rejected k :: history) := by
  constructor
  · simpa using h.reported
  · simpa using h.reporting
  · simpa using h.pruning
  · simpa using h.ended
  · intro k' hmem
    rcases List.mem_cons.mp hmem with heq | hmem
    · obtain rfl := Observation.rejected.inj heq
      exact .inr ⟨t, reason, Function.update_self ..⟩
    · rcases h.rejected k' hmem with ⟨error, hthrew⟩ | ⟨t', reason', hcall'⟩
      · exact .inl ⟨error, .tail _ hthrew⟩
      · have ht : t' ≠ t := by
          rintro rfl
          rw [hcall] at hcall'
          cases hcall'
        exact .inr ⟨t', reason', by rw [Function.update_of_ne ht, hcall']⟩
  · intro t' k' reason' hcall'
    by_cases ht : t' = t
    · rw [ht, Function.update_self] at hcall'
      obtain ⟨rfl, -⟩ := Call.refused.inj hcall'
      exact .head _
    · rw [Function.update_of_ne ht] at hcall'
      exact .tail _ (h.refused t' k' reason' hcall')
  · intro k' error hmem
    exact .tail _ (h.threw k' error (by simpa using hmem))

/-- The submit drops its order and throws. -/
lemma throw (h : ProcessInv io calls history) {t : ℕ} {k reason : String}
    (hcall : calls t = .refused k reason) (error : GatewayError) :
    ProcessInv io (Function.update calls t .idle) (.threw k error :: history) := by
  constructor
  · simpa using h.reported
  · simpa using h.reporting
  · simpa using h.pruning
  · simpa using h.ended
  · intro k' hmem
    rcases h.rejected k' (by simpa using hmem) with ⟨error', hthrew⟩ | ⟨t', reason', hcall'⟩
    · exact .inl ⟨error', .tail _ hthrew⟩
    · by_cases ht : t' = t
      · rw [ht] at hcall'
        obtain ⟨rfl, -⟩ := Call.refused.inj (hcall.symm.trans hcall')
        exact .inl ⟨error, .head _⟩
      · exact .inr ⟨t', reason', by rw [Function.update_of_ne ht, hcall']⟩
  · intro t' k' reason' hcall'
    by_cases ht : t' = t
    · rw [ht, Function.update_self] at hcall'
      cases hcall'
    · rw [Function.update_of_ne ht] at hcall'
      exact .tail _ (h.refused t' k' reason' hcall')
  · intro k' error' hmem
    rcases List.mem_cons.mp hmem with heq | hmem
    · obtain ⟨rfl, -⟩ := Observation.threw.inj heq
      exact .tail _ (h.refused t k' reason hcall)
    · exact .tail _ (h.threw k' error' hmem)

variable {s s' : System}

lemma ioStep (h : ProcessInv s.io s.calls s.history)
    (hout : OutcomeInv s.gateway.orders s.io s.calls s.history)
    (hentry : EntryInv s.gateway.orders s.calls s.history) (heff : IoEffect lib s s') :
    ProcessInv s'.io s'.calls s'.history := by
  cases heff with
  | @orderRead entry rest report hio hread =>
    refine h.setIo (by simp [hio]) (by simp) ?_
    intro report' rest' hio' hended
    obtain ⟨rfl, -⟩ := Io.report.inj hio'
    obtain ⟨-, rec, hrec, -⟩ := readOrderUpdate_some lib hread
    have hnone := (hentry.dropped report.cloid ⟨_, hended, rfl⟩).2
    rw [hrec] at hnone
    cases hnone
  | @reported report rest hio => exact h.report hio (hout.reading report rest hio).2
  | @pruned cloid rest hio => exact h.prune hio rest
  | ordersDone hio => exact h.setIo (by simp [hio]) (by simp) (by simp)
  | orderUnreadable hio _ => exact h.setIo (by simp [hio]) (by simp) (by simp)
  | orderIgnored hio _ => exact h.setIo (by simp [hio]) (by simp) (by simp)
  | fillsDone hio => exact h.setIo (by simp [hio]) (by simp) (by simp)
  | fillUnheard hio _ => exact h.setIo (by simp [hio]) (by simp) (by simp)
  | fillUnreadable hio _ _ => exact h.setIo (by simp [hio]) (by simp) (by simp)
  | fillIgnored hio _ _ => exact h.setIo (by simp [hio]) (by simp) (by simp)
  | fillRead hio _ _ => exact h.setIo (by simp [hio]) (by simp) (by simp)
  | handed hio => exact h.setIo (by simp [hio]) (by simp) (by simp)

lemma receive (h : ProcessInv s.io s.calls s.history) (hidle : s.io = .idle) (json : Json) :
    ProcessInv (s.receive lib json).io (s.receive lib json).calls (s.receive lib json).history := by
  unfold System.receive
  cases workOf lib json with
  | none => exact h
  | quote coin quote => exact h
  | orders entries => exact h.setIo (by simp [hidle]) (by simp) (by simp)
  | fills entries =>
    have harrived := h.observe (s.arrivals entries) (fun o hmem => by
      obtain ⟨k, entry, rfl, _⟩ := mem_arrivals hmem
      simp [Settles])
    exact harrived.setIo (by simp [hidle]) (by simp) (by simp)

lemma step {a : Action} (h : ProcessInv s.io s.calls s.history)
    (hout : OutcomeInv s.gateway.orders s.io s.calls s.history)
    (hentry : EntryInv s.gateway.orders s.calls s.history) (hs : step lib s a = some s') :
    ProcessInv s'.io s'.calls s'.history := by
  cases effect_of_step lib hs with
  | drawn hcall => exact h.setCall _ (by simp [hcall]) (by simp)
  | @registered t cloid rec hcall =>
    exact (h.setCall t (by simp [hcall]) (by simp)).observe [.registered cloid rec]
      (by simp [Settles])
  | rejected hcall hkind => exact h.reject hcall _
  | accepted hcall hkind => exact h.setCall _ (by simp [hcall]) (by simp)
  | refused hcall => exact h.throw hcall _
  | cancelUnknown hcall => exact h
  | cancelSent hcall hfound => exact h.setCall _ (by simp [hcall]) (by simp)
  | cancelGone hcall hgone => exact h.setCall _ (by simp [hcall]) (by simp)
  | cancelAnswered hcall => exact h.setCall _ (by simp [hcall]) (by simp)
  | reconciling hcall hcb hfound => exact h.setCall _ (by simp [hcall]) (by simp)
  | @unreconciled t clientOrderId symbol cloid hcall hskip =>
    exact (h.setCall t (by simp [hcall]) (by simp)).observe
      [.returned clientOrderId cloid s.venueFills] (by simp [Settles])
  | fetched hcall => exact h.setCall _ (by simp [hcall]) (by simp)
  | @reemitted t clientOrderId symbol cloid found reply hcall =>
    exact (h.setCall t (by simp [hcall]) (by simp)).observe [.returned clientOrderId cloid reply]
      (by simp [Settles])
  | skipped hcall hskip => exact h.setCall _ (by simp [hcall]) (by simp)
  | reemits hcall hfound htid => exact h.setCall _ (by simp [hcall]) (by simp)
  | @failed t hcall =>
    refine h.setCall t ?_ (by simp)
    intro k reason hrefused
    simp [hrefused, InFlight] at hcall
  | traded => exact h
  | received hio => exact h.receive lib hio _
  | io heff => exact h.ioStep lib hout hentry heff

end ProcessInv

/-- What holds in the runs with new ids. -/
structure DropInv (s : System) : Prop where
  outcome : OutcomeInv s.gateway.orders s.io s.calls s.history
  entry : EntryInv s.gateway.orders s.calls s.history
  process : ProcessInv s.io s.calls s.history

namespace DropInv
variable {s s' : System}

lemma initial (orderUpdateCB fillCB quoteCB : Bool) :
    DropInv (GatewayRuns.initial orderUpdateCB fillCB quoteCB) := by
  refine ⟨OutcomeInv.initial _ _ _, EntryInv.initial _ _ _, ?_⟩
  constructor <;> simp [GatewayRuns.initial]

lemma step {a : Action} (h : DropInv s) (hnew : NewIds s a) (hs : step lib s a = some s') :
    DropInv s' :=
  ⟨h.outcome.step lib hnew hs, h.entry.step lib h.outcome hnew hs,
    h.process.step lib h.outcome h.entry hs⟩

/-- An end that has been handled is an order that has been dropped. -/
lemma processed_iff (h : DropInv s) (k : String) : Processed s k ↔ Ended s.history k := by
  constructor
  · rintro (⟨update, hmem, hstate, hio⟩ | ⟨hmem, hcalls⟩)
    · rcases h.process.reported k update hmem hstate with hended | ⟨rest, hprune⟩
      · exact ⟨_, hended, rfl⟩
      · exact absurd hprune (hio rest)
    · rcases h.process.rejected k hmem with ⟨error, hthrew⟩ | ⟨t, reason, hcall⟩
      · exact ⟨_, hthrew, rfl⟩
      · exact absurd hcall (hcalls t reason)
  · rintro ⟨o, hmem, ho⟩
    cases o with
    | ended k' =>
      obtain rfl : k' = k := ho
      obtain ⟨update, hupdate, hstate⟩ := h.process.ended k' hmem
      refine .inl ⟨update, hupdate, hstate, ?_⟩
      exact fun rest hio => (h.process.pruning k' rest hio).1 hmem
    | threw k' error =>
      obtain rfl : k' = k := ho
      refine .inr ⟨h.process.threw k' error hmem, ?_⟩
      intro t reason hcall
      exact (h.outcome.holding t k' (by simp [Call.Holds, hcall])).2 error hmem
    | _ => exact ho.elim

/-- Only cancels can leave entries of orders whose end has been learnt. -/
lemma deadDropped_iff (h : DropInv s) :
    DeadDropped s ↔ ∀ k, FoundGone s.history k → Ended s.history k := by
  constructor
  · intro hdead k hfound
    exact h.entry.ended k (h.entry.found k hfound) (hdead k (.inr hfound)).1
  · intro hended k hlearnt
    have hdropped : Ended s.history k := hlearnt.elim (h.processed_iff k).mp (hended k)
    have hnone := (h.entry.dropped k hdropped).2
    refine ⟨hnone, ?_⟩
    intro c hc
    obtain ⟨rec, hrec, _⟩ := h.entry.linked c k hc
    rw [hnone] at hrec
    cases hrec

/-- What has been learnt stays so. -/
lemma learnt_later (h : DropInv s) (h' : DropInv s') {a : Action} (hs : Effect lib s a s')
    {k : String} (hlearnt : Learnt s k) : Learnt s' k := by
  obtain ⟨os, hos⟩ := history_grows lib hs
  have hsub : s.history ⊆ s'.history := hos ▸ List.subset_append_right os s.history
  rcases hlearnt with hprocessed | ⟨clientOrderId, reply, hmem⟩
  · exact .inl ((h'.processed_iff k).mpr (((h.processed_iff k).mp hprocessed).mono hsub))
  · exact .inr ⟨clientOrderId, reply, hsub hmem⟩

/-- A thread that is about to drop an order can do so, and has handled its end then. -/
lemma drops (h : DropInv s) :
    (∀ k rest, s.io = .prune k rest → ∃ s', GatewayRuns.step lib s .io = some s' ∧ Processed s' k) ∧
    ∀ t k reason, s.calls t = .refused k reason →
      ∃ s', GatewayRuns.step lib s (.prune t) = some s' ∧ Processed s' k := by
  constructor
  · intro k rest hio
    have hs : GatewayRuns.step lib s .io = some
        { s with
          gateway := s.gateway.pruneCloid k
          io := .orders rest
          history := .ended k :: s.history } := by
      simp only [GatewayRuns.step, System.ioStep, hio]
    have h' := h.step lib (a := .io) trivial hs
    exact ⟨_, hs, (h'.processed_iff k).mpr ⟨.ended k, .head _, rfl⟩⟩
  · intro t k reason hcall
    have hs : GatewayRuns.step lib s (.prune t) = some
        (({ s with gateway := s.gateway.pruneCloid k }.setCall t .idle).observe
          (.threw k ⟨classifyReject reason, reason⟩)) := by
      simp only [GatewayRuns.step, hcall]
    have h' := h.step lib (a := .prune t) trivial hs
    exact ⟨_, hs, (h'.processed_iff k).mpr ⟨.threw k ⟨classifyReject reason, reason⟩, .head _, rfl⟩⟩

end DropInv

/-- Every cancel that has returned on a gone order returned on one that is dropped. -/
def AllEnded (s : System) : Prop := ∀ k, FoundGone s.history k → Ended s.history k

/-- Steps in which no cancel returns. -/
lemma allEnded_of_quiet {s s' : System} {a : Action} (os : List Observation)
    (hhistory : s'.history = os ++ s.history)
    (hos : ∀ c k reply, .returned c k reply ∉ os) (hall : AllEnded s) (hbefore : ProcessedBefore s a) :
    AllEnded s' ↔ ProcessedBefore s a := by
  refine iff_of_true ?_ hbefore
  intro k hfound
  rw [hhistory] at hfound ⊢
  have hfound' := (foundGone_append fun c reply => hos c k reply).mp hfound
  exact (hall k hfound').mono (List.subset_append_right os s.history)

/-- A cancel returns. -/
lemma allEnded_of_return {s s' : System} {clientOrderId k : String} {reply : List UserFill}
    (hhistory : s'.history = .returned clientOrderId k reply :: s.history) (hall : AllEnded s) :
    AllEnded s' ↔ Ended s.history k := by
  have hsame : ∀ k', Ended s'.history k' ↔ Ended s.history k' := by
    intro k'
    rw [hhistory]
    exact ended_cons (by simp [Ends])
  constructor
  · intro hall'
    refine (hsame k).mp (hall' k ⟨clientOrderId, reply, ?_⟩)
    rw [hhistory]
    exact .head _
  · rintro hended k' ⟨c, reply', hmem⟩
    rw [hhistory] at hmem
    rw [hsame]
    rcases List.mem_cons.mp hmem with heq | hmem
    · obtain ⟨_, rfl, _⟩ := Observation.returned.inj heq
      exact hended
    · exact hall k' ⟨c, reply', hmem⟩

lemma allEnded_io {s s' : System} (heff : IoEffect lib s s') (hall : AllEnded s) :
    AllEnded s' ↔ ProcessedBefore s .io := by
  cases heff with
  | @reported report rest hio =>
    exact allEnded_of_quiet [.reported report.cloid report.update] rfl (by simp) hall trivial
  | @pruned cloid rest hio => exact allEnded_of_quiet [.ended cloid] rfl (by simp) hall trivial
  | _ => exact allEnded_of_quiet [] rfl (by simp) hall trivial

lemma allEnded_receive {s : System} (json : Json) (hall : AllEnded s) :
    AllEnded (s.receive lib json) ↔ ProcessedBefore s (.receive json) := by
  unfold System.receive
  cases workOf lib json with
  | fills entries =>
    have hquiet : ∀ c k reply, .returned c k reply ∉ s.arrivals entries := by
      intro c k reply hmem
      obtain ⟨k', entry, heq, _⟩ := mem_arrivals hmem
      cases heq
    exact allEnded_of_quiet (s.arrivals entries) rfl hquiet hall trivial
  | _ => exact allEnded_of_quiet [] rfl (by simp) hall trivial

lemma allEnded_step {s s' : System} {a : Action} (h : DropInv s) (hs : step lib s a = some s')
    (hall : AllEnded s) : AllEnded s' ↔ ProcessedBefore s a := by
  cases effect_of_step lib hs with
  | @registered t cloid rec hcall =>
    exact allEnded_of_quiet [.registered cloid rec] rfl (by simp) hall trivial
  | @rejected t status cloid hcall hkind =>
    exact allEnded_of_quiet [.rejected cloid] rfl (by simp) hall trivial
  | @refused t cloid reason hcall =>
    exact allEnded_of_quiet [.threw cloid ⟨classifyReject reason, reason⟩] rfl (by simp) hall trivial
  | @reconciling t clientOrderId symbol cloid hcall hcb hfound =>
    refine allEnded_of_quiet [] rfl (by simp) hall ?_
    intro c symbol' k hcall' hskip
    obtain ⟨rfl, _, _⟩ := Call.gone.inj (hcall.symm.trans hcall')
    exact absurd ⟨hcb, hfound⟩ hskip
  | @unreconciled t clientOrderId symbol cloid hcall hskip =>
    rw [allEnded_of_return rfl hall, ← h.processed_iff]
    constructor
    · intro hended c symbol' k hcall' _
      obtain ⟨_, _, rfl⟩ := Call.gone.inj (hcall.symm.trans hcall')
      exact hended
    · exact fun hbefore => hbefore clientOrderId symbol cloid hcall fun hboth => hboth.2 (hskip hboth.1)
  | @reemitted t clientOrderId symbol cloid found reply hcall =>
    rw [allEnded_of_return rfl hall, ← h.processed_iff]
    constructor
    · intro hended c symbol' k found' reply' hcall'
      obtain ⟨_, _, rfl, _⟩ := Call.reemitting.inj (hcall.symm.trans hcall')
      exact hended
    · exact fun hbefore => hbefore clientOrderId symbol cloid found reply hcall
  | skipped hcall hskip =>
    refine allEnded_of_quiet [] rfl (by simp) hall ?_
    intro c symbol' k found' reply' hcall'
    rw [hcall] at hcall'
    cases hcall'
  | reemits hcall hfound htid =>
    refine allEnded_of_quiet [] rfl (by simp) hall ?_
    intro c symbol' k found' reply' hcall'
    rw [hcall] at hcall'
    cases hcall'
  | received hio => exact allEnded_receive lib _ hall
  | io heff => exact allEnded_io lib heff hall
  | _ => exact allEnded_of_quiet [] rfl (by simp) hall trivial

/-- A step leaves no dead entries exactly when no cancel returns on an order still registered. -/
lemma leavesDropped_iff {s s' : System} {a : Action} (h : DropInv s) (h' : DropInv s')
    (hs : step lib s a = some s') (hall : AllEnded s) :
    LeavesDropped lib s a ↔ ProcessedBefore s a := by
  rw [← allEnded_step lib h hs hall, AllEnded, ← h'.deadDropped_iff]
  constructor
  · exact fun hleaves => hleaves s' hs
  · intro hdead t ht
    rw [hs] at ht
    obtain rfl := Option.some.inj ht
    exact hdead

/-- With new ids, no state of a run has entries of orders whose end has been learnt, exactly when
every cancel of the run that returns on a gone order returns after another path has handled its
end. What has been learnt at some point of a run stays so, and a thread that has yet to drop an
order whose end it has seen can always do so. -/
theorem dead_entries_dropped_exactly {orderUpdateCB fillCB quoteCB : Bool} {as : List Action}
    {s : System} :
    (Run (step lib) (fun s a => NewIds s a ∧ LeavesDropped lib s a)
        (GatewayRuns.initial orderUpdateCB fillCB quoteCB) as s ↔
      Run (step lib) (fun s a => NewIds s a ∧ ProcessedBefore s a)
        (GatewayRuns.initial orderUpdateCB fillCB quoteCB) as s) ∧
    (Run (step lib) NewIds (GatewayRuns.initial orderUpdateCB fillCB quoteCB) as s →
      (∀ more s', Run (step lib) NewIds s more s' → ∀ k, Learnt s k → Learnt s' k) ∧
      (∀ k rest, s.io = .prune k rest → ∃ s', step lib s .io = some s' ∧ Processed s' k) ∧
      ∀ t k reason, s.calls t = .refused k reason →
        ∃ s', step lib s (.prune t) = some s' ∧ Processed s' k) := by
  constructor
  · apply Run.congr (P := fun s => DropInv s ∧ AllEnded s)
    · refine ⟨DropInv.initial _ _ _, ?_⟩
      simp [AllEnded, FoundGone, GatewayRuns.initial]
    · rintro s a s' ⟨hinv, hall⟩ ⟨hnew, hleaves⟩ hstep
      have hinv' := hinv.step lib hnew hstep
      have hbefore := (leavesDropped_iff lib hinv hinv' hstep hall).mp hleaves
      exact ⟨hinv', (allEnded_step lib hinv hstep hall).mpr hbefore⟩
    · rintro s a s' ⟨hinv, hall⟩ hstep
      apply and_congr_right
      intro hnew
      exact leavesDropped_iff lib hinv (hinv.step lib hnew hstep) hstep hall
  · intro hrun
    have hstart : DropInv s := by
      apply hrun.invariant (DropInv.initial _ _ _)
      exact fun s a s' hinv hnew hstep => hinv.step lib hnew hstep
    refine ⟨?_, hstart.drops lib⟩
    intro more s' hmore k hlearnt
    suffices hlater : DropInv s' ∧ Learnt s' k from hlater.2
    apply hmore.invariant (P := fun s => DropInv s ∧ Learnt s k) ⟨hstart, hlearnt⟩
    rintro s a s' ⟨hinv, hlearnt⟩ hnew hstep
    have hinv' := hinv.step lib hnew hstep
    exact ⟨hinv', hinv.learnt_later lib hinv' (effect_of_step lib hstep) hlearnt⟩

end

/-- A cancel learns that its order is gone, reconciles, and leaves its entries. -/
theorem gone_order_kept : ∃ s, Run (step noNumbers) anyStep
    (GatewayRuns.initial true true true) (oneSubmit ++ ([.cancel 1 0 "a" "BTC",
      .cancelled 1 goneStatus, .reconcile 1, .fetched 1, .reemit 1] : List Action)) s ∧
    s.gateway.orders.byCloid ownCloid ≠ none ∧ ¬ DeadDropped s := by
  refine ⟨_, run_of_execute rfl, by decide, ?_⟩
  intro hdead
  exact absurd (hdead ownCloid (.inr ⟨"a", [], .head _⟩)).1 (by decide)

end HyperliquidApi.GatewayRuns
