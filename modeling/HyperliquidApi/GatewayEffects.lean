import HyperliquidApi.GatewayRuns

/-!
# What a step of the gateway can do

The step function, case by case, with what it has checked. Invariants are proved over these
cases and never unfold it.
-/
namespace HyperliquidApi.GatewayRuns

variable (lib : Library)

/-- What a step of the stream's thread does, case by case. -/
inductive IoEffect (s : System) : System → Prop
  | ordersDone (hio : s.io = .orders []) : IoEffect s { s with io := .idle }
  | orderUnreadable {entry : Json} {rest : List Json} {e : JsonError}
      (hio : s.io = .orders (entry :: rest))
      (hread : readOrderUpdate lib s.gateway.orders entry = .error e) :
      IoEffect s { s with io := .idle }
  | orderIgnored {entry : Json} {rest : List Json} (hio : s.io = .orders (entry :: rest))
      (hread : readOrderUpdate lib s.gateway.orders entry = .ok none) :
      IoEffect s { s with io := .orders rest }
  | orderRead {entry : Json} {rest : List Json} {report : OrderReport}
      (hio : s.io = .orders (entry :: rest))
      (hread : readOrderUpdate lib s.gateway.orders entry = .ok (some report)) :
      IoEffect s { s with io := .report report rest }
  | reported {report : OrderReport} {rest : List Json} (hio : s.io = .report report rest) :
      IoEffect s
        { s with
          gateway := s.gateway.reportUpdate report.update
          io := if report.terminal then .prune report.cloid rest else .orders rest
          history := .reported report.cloid report.update :: s.history }
  | pruned {cloid : String} {rest : List Json} (hio : s.io = .prune cloid rest) :
      IoEffect s
        { s with
          gateway := s.gateway.pruneCloid cloid
          io := .orders rest
          history := .ended cloid :: s.history }
  | fillsDone (hio : s.io = .fills []) : IoEffect s { s with io := .idle }
  | fillUnheard {entry : Json} {rest : List Json} (hio : s.io = .fills (entry :: rest))
      (hcb : s.gateway.fillCB = false) : IoEffect s { s with io := .fills rest }
  | fillUnreadable {entry : Json} {rest : List Json} {e : JsonError}
      (hio : s.io = .fills (entry :: rest)) (hcb : s.gateway.fillCB = true)
      (hread : readFill lib s.gateway.orders entry = .error e) : IoEffect s { s with io := .idle }
  | fillIgnored {entry : Json} {rest : List Json} (hio : s.io = .fills (entry :: rest))
      (hcb : s.gateway.fillCB = true) (hread : readFill lib s.gateway.orders entry = .ok none) :
      IoEffect s { s with io := .fills rest }
  | fillRead {entry : Json} {rest : List Json} {fill : FillEvent}
      (hio : s.io = .fills (entry :: rest)) (hcb : s.gateway.fillCB = true)
      (hread : readFill lib s.gateway.orders entry = .ok (some fill)) :
      IoEffect s { s with io := .hand fill rest }
  | handed {fill : FillEvent} {rest : List Json} (hio : s.io = .hand fill rest) :
      IoEffect s { s with gateway := s.gateway.deliver (.fill fill), io := .fills rest }

/-- A call that is waiting for the network. -/
def InFlight : Call → Prop
  | .placing _ => True
  | .cancelling _ _ _ => True
  | .fetching _ _ _ _ => True
  | _ => False

/-- What an action does where it can happen. -/
inductive Effect (s : System) : Action → System → Prop
  | drawn {t ms : ℕ} {clientOrderId symbol : String} {origSz : ℚ} (hcall : s.calls t = .idle) :
      Effect s (.draw t ms clientOrderId symbol origSz)
        ({ s with gateway := { s.gateway with orders := s.gateway.orders.fetchAdd } }.setCall t
          (.naming (formatCloid ms s.gateway.orders.cloidCounter) ⟨clientOrderId, symbol, origSz⟩))
  | registered {t : ℕ} {cloid : String} {rec : OrderRec} (hcall : s.calls t = .naming cloid rec) :
      Effect s (.register t)
        (({ s with gateway := { s.gateway with orders := s.gateway.orders.register cloid rec } }
          |>.setCall t (.placing cloid)).observe (.registered cloid rec))
  | rejected {t : ℕ} {status : ActionStatus} {cloid : String} (hcall : s.calls t = .placing cloid)
      (hkind : status.kind = .error) :
      Effect s (.placed t status)
        ((s.setCall t (.refused cloid status.error)).observe (.rejected cloid))
  | accepted {t : ℕ} {status : ActionStatus} {cloid : String} (hcall : s.calls t = .placing cloid)
      (hkind : status.kind ≠ .error) : Effect s (.placed t status) (s.setCall t .idle)
  | refused {t : ℕ} {cloid reason : String} (hcall : s.calls t = .refused cloid reason) :
      Effect s (.prune t)
        (({ s with gateway := s.gateway.pruneCloid cloid }.setCall t .idle).observe
          (.threw cloid ⟨classifyReject reason, reason⟩))
  | cancelUnknown {t : ℕ} {asset : ℤ} {clientOrderId symbol : String} (hcall : s.calls t = .idle) :
      Effect s (.cancel t asset clientOrderId symbol) s
  | cancelSent {t : ℕ} {asset : ℤ} {clientOrderId symbol : String} (hcall : s.calls t = .idle)
      (hfound : s.gateway.orders.cloidFor clientOrderId ≠ "") :
      Effect s (.cancel t asset clientOrderId symbol)
        (s.setCall t (.cancelling clientOrderId symbol (s.gateway.orders.cloidFor clientOrderId)))
  | cancelGone {t : ℕ} {status : ActionStatus} {clientOrderId symbol cloid : String}
      (hcall : s.calls t = .cancelling clientOrderId symbol cloid)
      (hgone : isOrderGoneReason status.error = true) :
      Effect s (.cancelled t status) (s.setCall t (.gone clientOrderId symbol cloid))
  | cancelAnswered {t : ℕ} {status : ActionStatus} {clientOrderId symbol cloid : String}
      (hcall : s.calls t = .cancelling clientOrderId symbol cloid) :
      Effect s (.cancelled t status) (s.setCall t .idle)
  | reconciling {t : ℕ} {clientOrderId symbol cloid : String}
      (hcall : s.calls t = .gone clientOrderId symbol cloid) (hcb : s.gateway.fillCB = true)
      (hfound : s.gateway.orders.cloidFor clientOrderId ≠ "") :
      Effect s (.reconcile t) (s.setCall t (.fetching clientOrderId symbol cloid
        (s.gateway.orders.cloidFor clientOrderId)))
  | unreconciled {t : ℕ} {clientOrderId symbol cloid : String}
      (hcall : s.calls t = .gone clientOrderId symbol cloid)
      (hskip : s.gateway.fillCB = true → s.gateway.orders.cloidFor clientOrderId = "") :
      Effect s (.reconcile t)
        ((s.setCall t .idle).observe (.returned clientOrderId cloid s.venueFills))
  | fetched {t : ℕ} {clientOrderId symbol cloid found : String}
      (hcall : s.calls t = .fetching clientOrderId symbol cloid found) :
      Effect s (.fetched t)
        (s.setCall t (.reemitting clientOrderId symbol cloid found s.venueFills s.venueFills))
  | reemitted {t : ℕ} {clientOrderId symbol cloid found : String} {reply : List UserFill}
      (hcall : s.calls t = .reemitting clientOrderId symbol cloid found reply []) :
      Effect s (.reemit t) ((s.setCall t .idle).observe (.returned clientOrderId cloid reply))
  | skipped {t : ℕ} {clientOrderId symbol cloid found : String} {reply rest : List UserFill}
      {fill : UserFill}
      (hcall : s.calls t = .reemitting clientOrderId symbol cloid found reply (fill :: rest))
      (hskip : fill.cloid ≠ found ∨ fill.tid = 0) :
      Effect s (.reemit t) (s.setCall t (.reemitting clientOrderId symbol cloid found reply rest))
  | reemits {t : ℕ} {clientOrderId symbol cloid found : String} {reply rest : List UserFill}
      {fill : UserFill}
      (hcall : s.calls t = .reemitting clientOrderId symbol cloid found reply (fill :: rest))
      (hfound : fill.cloid = found) (htid : fill.tid ≠ 0) :
      Effect s (.reemit t)
        { s.setCall t (.reemitting clientOrderId symbol cloid found reply rest) with
          gateway := s.gateway.deliver (.fill (System.reemission clientOrderId symbol fill)) }
  | failed {t : ℕ} (hcall : InFlight (s.calls t)) : Effect s (.fail t) (s.setCall t .idle)
  | traded {fills : List UserFill} : Effect s (.trade fills) { s with venueFills := fills }
  | received {json : Json} (hio : s.io = .idle) : Effect s (.receive json) (s.receive lib json)
  | io {s' : System} (h : IoEffect lib s s') : Effect s .io s'

lemma ioEffect_of_step {s s' : System} (h : s.ioStep lib = some s') : IoEffect lib s s' := by
  cases hio : s.io with
  | idle => simp [System.ioStep, hio] at h
  | orders entries =>
    cases entries with
    | nil =>
      obtain rfl : { s with io := .idle } = s' := by simpa [System.ioStep, hio] using h
      exact .ordersDone hio
    | cons entry rest =>
      simp only [System.ioStep, hio] at h
      cases hread : readOrderUpdate lib s.gateway.orders entry with
      | error e =>
        rw [hread] at h
        obtain rfl := Option.some.inj h
        exact .orderUnreadable hio hread
      | ok read =>
        cases read with
        | none =>
          rw [hread] at h
          obtain rfl := Option.some.inj h
          exact .orderIgnored hio hread
        | some report =>
          rw [hread] at h
          obtain rfl := Option.some.inj h
          exact .orderRead hio hread
  | report report rest =>
    simp only [System.ioStep, hio, Option.some.injEq] at h
    subst h
    exact .reported hio
  | prune cloid rest =>
    simp only [System.ioStep, hio, Option.some.injEq] at h
    subst h
    exact .pruned hio
  | fills entries =>
    cases entries with
    | nil =>
      obtain rfl : { s with io := .idle } = s' := by simpa [System.ioStep, hio] using h
      exact .fillsDone hio
    | cons entry rest =>
      simp only [System.ioStep, hio] at h
      cases hcb : s.gateway.fillCB with
      | false =>
        simp only [hcb, Bool.false_eq_true, if_false, Option.some.injEq] at h
        subst h
        exact .fillUnheard hio hcb
      | true =>
        simp only [hcb, if_true] at h
        cases hread : readFill lib s.gateway.orders entry with
        | error e =>
          rw [hread] at h
          obtain rfl := Option.some.inj h
          exact .fillUnreadable hio hcb hread
        | ok read =>
          cases read with
          | none =>
            rw [hread] at h
            obtain rfl := Option.some.inj h
            exact .fillIgnored hio hcb hread
          | some fill =>
            rw [hread] at h
            obtain rfl := Option.some.inj h
            exact .fillRead hio hcb hread
  | hand fill rest =>
    simp only [System.ioStep, hio, Option.some.injEq] at h
    subst h
    exact .handed hio

/-- The step function does nothing else. -/
lemma effect_of_step {s s' : System} {a : Action} (h : step lib s a = some s') :
    Effect lib s a s' := by
  cases a with
  | draw t ms clientOrderId symbol origSz =>
    simp only [step] at h
    split at h
    · rename_i hcall
      obtain rfl := Option.some.inj h
      exact .drawn hcall
    · cases h
  | register t =>
    simp only [step] at h
    split at h
    · rename_i hcall
      obtain rfl := Option.some.inj h
      exact .registered hcall
    · cases h
  | placed t status =>
    simp only [step] at h
    split at h
    · rename_i hcall
      split at h
      · rename_i hkind
        obtain rfl := Option.some.inj h
        exact .rejected hcall hkind
      · rename_i hkind
        obtain rfl := Option.some.inj h
        exact .accepted hcall hkind
    · cases h
  | prune t =>
    simp only [step] at h
    split at h
    · rename_i hcall
      obtain rfl := Option.some.inj h
      exact .refused hcall
    · cases h
  | cancel t asset clientOrderId symbol =>
    simp only [step] at h
    split at h
    · rename_i hcall
      split at h
      · obtain rfl := Option.some.inj h
        exact .cancelUnknown hcall
      · rename_i hfound
        obtain rfl := Option.some.inj h
        exact .cancelSent hcall (not_or.mp hfound).2
    · cases h
  | cancelled t status =>
    simp only [step] at h
    split at h
    · rename_i hcall
      split at h
      · rename_i hgone
        obtain rfl := Option.some.inj h
        exact .cancelGone hcall hgone.2
      · obtain rfl := Option.some.inj h
        exact .cancelAnswered hcall
    · cases h
  | reconcile t =>
    simp only [step] at h
    split at h
    · rename_i hcall
      split at h
      · rename_i hfound
        obtain rfl := Option.some.inj h
        exact .reconciling hcall hfound.1 hfound.2
      · rename_i hskip
        obtain rfl := Option.some.inj h
        refine .unreconciled hcall ?_
        intro hcb
        by_contra hfound
        exact hskip ⟨hcb, hfound⟩
    · cases h
  | fetched t =>
    simp only [step] at h
    split at h
    · rename_i hcall
      obtain rfl := Option.some.inj h
      exact .fetched hcall
    · cases h
  | reemit t =>
    simp only [step] at h
    split at h
    · rename_i hcall
      obtain rfl := Option.some.inj h
      exact .reemitted hcall
    · rename_i hcall
      split at h
      · rename_i hskip
        obtain rfl := Option.some.inj h
        exact .skipped hcall hskip
      · rename_i hemit
        obtain rfl := Option.some.inj h
        obtain ⟨hfound, htid⟩ := not_or.mp hemit
        exact .reemits hcall (not_not.mp hfound) htid
    · cases h
  | fail t =>
    simp only [step] at h
    split at h
    · rename_i hcall
      obtain rfl := Option.some.inj h
      exact .failed (by simp [InFlight, hcall])
    · rename_i hcall
      obtain rfl := Option.some.inj h
      exact .failed (by simp [InFlight, hcall])
    · rename_i hcall
      obtain rfl := Option.some.inj h
      exact .failed (by simp [InFlight, hcall])
    · cases h
  | trade fills =>
    obtain rfl := Option.some.inj h
    exact .traded
  | receive json =>
    simp only [step] at h
    split at h
    · rename_i hio
      obtain rfl := Option.some.inj h
      exact .received hio
    · cases h
  | io => exact .io (ioEffect_of_step lib h)

/-- Observations are only added. -/
lemma history_grows {s s' : System} {a : Action} (hs : Effect lib s a s') :
    ∃ os, s'.history = os ++ s.history := by
  cases hs with
  | @registered t cloid rec hcall => exact ⟨[.registered cloid rec], rfl⟩
  | @rejected t status cloid hcall hkind => exact ⟨[.rejected cloid], rfl⟩
  | @refused t cloid reason hcall =>
    exact ⟨[.threw cloid ⟨classifyReject reason, reason⟩], rfl⟩
  | @unreconciled t c symbol cloid hcall hskip => exact ⟨[.returned c cloid s.venueFills], rfl⟩
  | @reemitted t c symbol cloid found reply hcall => exact ⟨[.returned c cloid reply], rfl⟩
  | @received json hio =>
    unfold System.receive
    cases workOf lib json with
    | fills entries => exact ⟨s.arrivals entries, rfl⟩
    | _ => exact ⟨[], rfl⟩
  | io heff =>
    cases heff with
    | @reported report rest hio => exact ⟨[.reported report.cloid report.update], rfl⟩
    | @pruned cloid rest hio => exact ⟨[.ended cloid], rfl⟩
    | _ => exact ⟨[], rfl⟩
  | _ => exact ⟨[], rfl⟩

/-- Callbacks are not exchanged, and what they have received stays received. -/
lemma delivered_grows {s s' : System} {a : Action} (hs : Effect lib s a s') :
    s.gateway.delivered ⊆ s'.gateway.delivered ∧ s'.gateway.fillCB = s.gateway.fillCB := by
  cases hs with
  | reemits => exact ⟨List.subset_append_left _ _, rfl⟩
  | @received json hio =>
    unfold System.receive
    cases workOf lib json with
    | quote coin bbo => exact ⟨s.gateway.delivered_subset_onBbo coin bbo, by simp⟩
    | _ => exact ⟨List.Subset.refl _, rfl⟩
  | io heff =>
    cases heff with
    | @reported report rest hio =>
      exact ⟨s.gateway.delivered_subset_reportUpdate report.update, by simp⟩
    | handed => exact ⟨List.subset_append_left _ _, rfl⟩
    | _ => exact ⟨List.Subset.refl _, rfl⟩
  | _ => exact ⟨List.Subset.refl _, rfl⟩

lemma submitted_iff (s : System) (k : String) : s.submitted k = true ↔ s.Submitted k := by
  unfold System.submitted System.Submitted
  rw [List.any_eq_true]
  constructor
  · rintro ⟨o, ho, hk⟩
    cases o with
    | registered k' rec =>
      obtain rfl : k' = k := by simpa using hk
      exact ⟨rec, ho⟩
    | _ => simp at hk
  · rintro ⟨rec, hrec⟩
    exact ⟨_, hrec, by simp⟩

lemma mem_arrivals {s : System} {entries : List Json} {o : Observation}
    (h : o ∈ s.arrivals entries) : ∃ k entry, o = .arrived k entry ∧ entry ∈ entries ∧
      entry.find "cloid" = some (.string k) ∧ s.Submitted k := by
  obtain ⟨entry, hmem, ho⟩ := List.mem_filterMap.mp h
  split at ho
  · rename_i k hk
    split_ifs at ho with hsub
    exact ⟨k, entry, (Option.some.inj ho).symm, hmem, hk, (submitted_iff s k).mp hsub⟩
  · cases ho

end HyperliquidApi.GatewayRuns
