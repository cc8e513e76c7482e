import HyperliquidApi.Attribution

/-!
# One terminal outcome per order

An order can end on the stream's thread, which reports a terminal update and then drops the
record, and in its submit, which drops the record and then throws. Neither drop is told whether
the other came first. Outcomes are read off the history, whose first element is the latest.
-/
namespace HyperliquidApi.GatewayRuns
open Runs OrderMaps

/-- The caller hears about the order: an update reaches its callback, or its submit throws. -/
def Notice (heard : Bool) (k : String) : Observation → Prop
  | .reported k' _ => heard = true ∧ k' = k
  | .threw k' _ => k' = k
  | _ => False

/-- The caller hears that the order is filled, cancelled or rejected. -/
def Outcome (heard : Bool) (k : String) : Observation → Prop
  | .reported k' update => heard = true ∧ k' = k ∧ update.state ≠ .accepted
  | .threw k' _ => k' = k
  | _ => False

/-- Nothing is heard about an order after a terminal outcome, so there is at most one. -/
def OneOutcome (s : System) : Prop :=
  s.history.Pairwise fun later earlier => ∀ k, Outcome s.gateway.orderUpdateCB k earlier →
    ¬ Notice s.gateway.orderUpdateCB k later

/-- A submit registers under an id that no submit registered before. -/
def NewIds (s : System) : Action → Prop
  | .register t => ∀ k rec, s.calls t = .naming k rec → ¬ s.Submitted k
  | _ => True

def Action.draws : Action → Bool
  | .draw .. => true
  | _ => false

/-- With the callback set, a submit throws and the stream's thread reports while the order is still
registered, the stream's thread not being about to drop it. -/
def StillRegistered (s : System) : Action → Prop
  | .prune t => s.gateway.orderUpdateCB = true → ∀ k reason, s.calls t = .refused k reason →
      s.gateway.orders.byCloid k ≠ none ∧ ∀ rest, s.io ≠ .prune k rest
  | .io => s.gateway.orderUpdateCB = true → ∀ report rest, s.io = .report report rest →
      s.gateway.orders.byCloid report.cloid ≠ none
  | _ => True

/-- The call is between the registration and the end of this order's submit. -/
def Call.Holds (k : String) : Call → Prop
  | .placing k' => k' = k
  | .refused k' _ => k' = k
  | _ => False

def Registered (history : List Observation) (k : String) : Prop :=
  ∃ rec, .registered k rec ∈ history

lemma Outcome.heard {heard : Bool} {k : String} {o : Observation} (h : Outcome heard k o) :
    Outcome true k o := by
  cases o with
  | reported k' update => exact ⟨rfl, h.2⟩
  | threw k' error => exact h
  | _ => exact h

lemma Registered.mono {history history' : List Observation} {k : String} (h : Registered history k)
    (hsub : history ⊆ history') : Registered history' k := by
  obtain ⟨rec, hrec⟩ := h
  exact ⟨rec, hsub hrec⟩

lemma Call.holds_update {calls : ℕ → Call} {t t' : ℕ} {call : Call} {k : String} :
    (Function.update calls t call t').Holds k ↔
      t' = t ∧ call.Holds k ∨ t' ≠ t ∧ (calls t').Holds k := by
  by_cases ht : t' = t <;> simp [ht]

lemma registered_cons {history : List Observation} {o : Observation} {k : String}
    (ho : ∀ rec, o ≠ .registered k rec) :
    Registered (o :: history) k ↔ Registered history k := by
  constructor
  · rintro ⟨rec, hrec⟩
    exact ⟨rec, (List.mem_cons.mp hrec).resolve_left (ho rec).symm⟩
  · exact fun hreg => hreg.mono (List.subset_cons_self _ _)

/-- Observations about no order's outcome do not matter. -/
lemma oneOutcome_append {s s' : System} {os : List Observation}
    (hcb : s'.gateway.orderUpdateCB = s.gateway.orderUpdateCB)
    (hhistory : s'.history = os ++ s.history) (hos : ∀ o ∈ os, ∀ heard k, ¬ Notice heard k o) :
    OneOutcome s' ↔ OneOutcome s := by
  unfold OneOutcome
  rw [hhistory, hcb, List.pairwise_append]
  constructor
  · exact fun h => h.2.1
  · intro h
    refine ⟨?_, h, fun o ho o' _ k _ => hos o ho _ k⟩
    apply List.pairwise_of_forall_mem_list
    exact fun o ho o' _ k _ => hos o ho _ k

lemma oneOutcome_cons {s s' : System} {o : Observation}
    (hcb : s'.gateway.orderUpdateCB = s.gateway.orderUpdateCB)
    (hhistory : s'.history = o :: s.history) :
    OneOutcome s' ↔ (∀ k, Notice s.gateway.orderUpdateCB k o →
      ∀ earlier ∈ s.history, ¬ Outcome s.gateway.orderUpdateCB k earlier) ∧ OneOutcome s := by
  unfold OneOutcome
  rw [hhistory, hcb, List.pairwise_cons]
  constructor
  · exact fun h => ⟨fun k ho earlier hm hout => h.1 earlier hm k hout ho, h.2⟩
  · exact fun h => ⟨fun earlier hm k hout ho => h.1 k ho earlier hm hout, h.2⟩

/-- In runs with new ids, a record is missing only after its order has ended. -/
structure OutcomeInv (m : OrderMaps) (io : Io) (calls : ℕ → Call) (history : List Observation) :
    Prop where
  known : ∀ k rec, m.byCloid k = some rec → Registered history k
  missing : ∀ k, Registered history k → m.byCloid k = none → ∃ o ∈ history, Outcome true k o
  ended : ∀ k, ∀ o ∈ history, Outcome true k o →
    Registered history k ∧ (m.byCloid k = none ∨ ∃ rest, io = .prune k rest)
  pruning : ∀ k rest, io = .prune k rest → ∃ o ∈ history, Outcome true k o
  reading : ∀ report rest, io = .report report rest → Registered history report.cloid ∧
    (report.terminal = true ↔ report.update.state ≠ .accepted)
  holding : ∀ t k, (calls t).Holds k →
    Registered history k ∧ ∀ error, .threw k error ∉ history
  alone : ∀ t t' k, (calls t).Holds k → (calls t').Holds k → t = t'

namespace OutcomeInv
variable {m : OrderMaps} {io : Io} {calls : ℕ → Call} {history : List Observation}

lemma setCall (h : OutcomeInv m io calls history) (t : ℕ) {call : Call}
    (hcall : ∀ k, call.Holds k → (calls t).Holds k) :
    OutcomeInv m io (Function.update calls t call) history := by
  have hbefore : ∀ t' k, (Function.update calls t call t').Holds k → (calls t').Holds k := by
    intro t' k hholds
    obtain ⟨rfl, hnow⟩ | ⟨_, hthen⟩ := Call.holds_update.mp hholds
    · exact hcall k hnow
    · exact hthen
  exact
    { h with
      holding := fun t' k hholds => h.holding t' k (hbefore t' k hholds)
      alone := fun t₁ t₂ k h₁ h₂ => h.alone t₁ t₂ k (hbefore t₁ k h₁) (hbefore t₂ k h₂) }

/-- Observations that register nothing and end nothing. -/
lemma observe (h : OutcomeInv m io calls history) (os : List Observation)
    (hos : ∀ o ∈ os, (∀ k rec, o ≠ .registered k rec) ∧ (∀ k, ¬ Outcome true k o)) :
    OutcomeInv m io calls (os ++ history) := by
  have hmore : ∀ k, Registered history k → Registered (os ++ history) k := by
    exact fun k hreg => hreg.mono (List.subset_append_right os history)
  have hold : ∀ k, Registered (os ++ history) k → Registered history k := by
    rintro k ⟨rec, hrec⟩
    refine ⟨rec, (List.mem_append.mp hrec).resolve_left ?_⟩
    exact fun hm => (hos _ hm).1 k rec rfl
  have hout : ∀ k, (∃ o ∈ history, Outcome true k o) → ∃ o ∈ os ++ history, Outcome true k o := by
    rintro k ⟨o, hm, ho⟩
    exact ⟨o, List.mem_append_right os hm, ho⟩
  have hout' : ∀ k, ∀ o ∈ os ++ history, Outcome true k o → o ∈ history := by
    intro k o hm ho
    exact (List.mem_append.mp hm).resolve_left fun hm' => (hos o hm').2 k ho
  exact
    { known := fun k rec hrec => hmore k (h.known k rec hrec)
      missing := fun k hreg hnone => hout k (h.missing k (hold k hreg) hnone)
      ended := fun k o hm ho => by
        obtain ⟨hreg, hgone⟩ := h.ended k o (hout' k o hm ho) ho
        exact ⟨hmore k hreg, hgone⟩
      pruning := fun k rest hio => hout k (h.pruning k rest hio)
      reading := fun report rest hio => by
        obtain ⟨hreg, hterminal⟩ := h.reading report rest hio
        exact ⟨hmore _ hreg, hterminal⟩
      holding := fun t k hholds => by
        obtain ⟨hreg, hthrew⟩ := h.holding t k hholds
        exact ⟨hmore k hreg, fun error hm => hthrew error (hout' k _ hm rfl)⟩
      alone := h.alone }

/-- The stream's thread goes on, not about to drop a record before or after. -/
lemma setIo (h : OutcomeInv m io calls history) {io' : Io} (hbefore : ∀ k rest, io ≠ .prune k rest)
    (hafter : ∀ k rest, io' ≠ .prune k rest)
    (hreading : ∀ report rest, io' = .report report rest → Registered history report.cloid ∧
      (report.terminal = true ↔ report.update.state ≠ .accepted)) :
    OutcomeInv m io' calls history :=
  { h with
    ended := by
      intro k o hm ho
      obtain ⟨hreg, hnone | ⟨rest, hio⟩⟩ := h.ended k o hm ho
      · exact ⟨hreg, .inl hnone⟩
      · exact absurd hio (hbefore k rest)
    pruning := fun k rest hio => absurd hio (hafter k rest)
    reading := hreading }

lemma pruneCloid (h : OutcomeInv m io calls history) {k : String}
    (hended : Registered history k → ∃ o ∈ history, Outcome true k o) :
    OutcomeInv (m.pruneCloid k) io calls history where
  known k' rec hrec := h.known k' rec (pruneCloid_eq_some.mp hrec).2
  missing k' hreg hnone := by
    rcases pruneCloid_eq_none.mp hnone with rfl | hnone
    · exact hended hreg
    · exact h.missing k' hreg hnone
  ended k' o hm ho := by
    obtain ⟨hreg, hgone⟩ := h.ended k' o hm ho
    refine ⟨hreg, hgone.imp ?_ id⟩
    exact fun hnone => pruneCloid_eq_none.mpr (.inr hnone)
  pruning := h.pruning
  reading := h.reading
  holding := h.holding
  alone := h.alone

/-- A terminal update is reported before the record is dropped. -/
lemma reported (h : OutcomeInv m io calls history) {k : String} {update : OrderUpdate}
    (hreg : Registered history k) (hstate : update.state ≠ .accepted)
    (hbefore : ∀ k rest, io ≠ .prune k rest) (rest : List Json) :
    OutcomeInv m (.prune k rest) calls (.reported k update :: history) := by
  have hsame : ∀ k', Registered (.reported k update :: history) k' ↔ Registered history k' :=
    fun k' => registered_cons (by simp)
  constructor
  · exact fun k' rec hrec => (hsame k').mpr (h.known k' rec hrec)
  · intro k' hreg' hnone
    obtain ⟨o, hm, ho⟩ := h.missing k' ((hsame k').mp hreg') hnone
    exact ⟨o, .tail _ hm, ho⟩
  · intro k' o hm ho
    rcases List.mem_cons.mp hm with rfl | hm
    · obtain rfl : k = k' := ho.2.1
      exact ⟨(hsame k).mpr hreg, .inr ⟨rest, rfl⟩⟩
    · obtain ⟨hreg', hnone | ⟨rest', hio⟩⟩ := h.ended k' o hm ho
      · exact ⟨(hsame k').mpr hreg', .inl hnone⟩
      · exact absurd hio (hbefore k' rest')
  · intro k' rest' hio
    obtain ⟨rfl, rfl⟩ := Io.prune.inj hio
    exact ⟨_, .head _, rfl, rfl, hstate⟩
  · intro report rest' hio
    cases hio
  · intro t k' hholds
    obtain ⟨hreg', hthrew⟩ := h.holding t k' hholds
    refine ⟨(hsame k').mpr hreg', ?_⟩
    rintro error (_ | ⟨_, hm⟩)
    exact hthrew error hm
  · exact h.alone

/-- The stream's thread has dropped the record. -/
lemma pruned (h : OutcomeInv m io calls history) {k : String} {rest : List Json}
    (hio : io = .prune k rest) (hnone : m.byCloid k = none) (rest' : List Json) :
    OutcomeInv m (.orders rest') calls history where
  known := h.known
  missing := h.missing
  ended k' o hm ho := by
    obtain ⟨hreg, hgone | ⟨rest'', hio'⟩⟩ := h.ended k' o hm ho
    · exact ⟨hreg, .inl hgone⟩
    · rw [hio] at hio'
      obtain ⟨rfl, _⟩ := Io.prune.inj hio'
      exact ⟨hreg, .inl hnone⟩
  pruning _ _ heq := by cases heq
  reading _ _ heq := by cases heq
  holding := h.holding
  alone := h.alone

/-- The order's own submit throws. -/
lemma threw (h : OutcomeInv m io calls history) {t : ℕ} {k : String} (hholds : (calls t).Holds k)
    (error : GatewayError) :
    OutcomeInv (m.pruneCloid k) io (Function.update calls t .idle) (.threw k error :: history) := by
  have hreg := (h.holding t k hholds).1
  have hsame : ∀ k', Registered (.threw k error :: history) k' ↔ Registered history k' :=
    fun k' => registered_cons (by simp)
  have hother : ∀ t' k', (Function.update calls t .idle t').Holds k' →
      t' ≠ t ∧ (calls t').Holds k' := by
    intro t' k' hholds'
    obtain ⟨_, hidle⟩ | hother := Call.holds_update.mp hholds'
    · exact hidle.elim
    · exact hother
  constructor
  · intro k' rec hrec
    exact (hsame k').mpr (h.known k' rec (pruneCloid_eq_some.mp hrec).2)
  · intro k' hreg' hnone
    rcases pruneCloid_eq_none.mp hnone with rfl | hnone
    · exact ⟨_, .head _, rfl⟩
    · obtain ⟨o, hm, ho⟩ := h.missing k' ((hsame k').mp hreg') hnone
      exact ⟨o, .tail _ hm, ho⟩
  · rintro k' o hm ho
    rcases List.mem_cons.mp hm with rfl | hm
    · obtain rfl : k = k' := ho
      exact ⟨(hsame k).mpr hreg, .inl (by simp)⟩
    · obtain ⟨hreg', hgone⟩ := h.ended k' o hm ho
      refine ⟨(hsame k').mpr hreg', hgone.imp ?_ id⟩
      exact fun hnone => pruneCloid_eq_none.mpr (.inr hnone)
  · intro k' rest hio
    obtain ⟨o, hm, ho⟩ := h.pruning k' rest hio
    exact ⟨o, .tail _ hm, ho⟩
  · intro report rest hio
    obtain ⟨hreg', hterminal⟩ := h.reading report rest hio
    exact ⟨(hsame _).mpr hreg', hterminal⟩
  · intro t' k' hholds'
    obtain ⟨ht, hbefore⟩ := hother t' k' hholds'
    obtain ⟨hreg', hthrew⟩ := h.holding t' k' hbefore
    refine ⟨(hsame k').mpr hreg', ?_⟩
    intro error' hm
    rcases List.mem_cons.mp hm with heq | hm
    · obtain ⟨rfl, rfl⟩ := Observation.threw.inj heq
      exact ht (h.alone t' t k' hbefore hholds)
    · exact hthrew error' hm
  · intro t₁ t₂ k' h₁ h₂
    exact h.alone t₁ t₂ k' (hother t₁ k' h₁).2 (hother t₂ k' h₂).2

/-- A new id's record is not that of an order that has ended. -/
lemma register (h : OutcomeInv m io calls history) {k : String} (hnew : ¬ Registered history k)
    (t : ℕ) (rec : OrderRec) :
    OutcomeInv (m.register k rec) io (Function.update calls t (.placing k))
      (.registered k rec :: history) := by
  have hmore : ∀ k', Registered history k' → Registered (.registered k rec :: history) k' := by
    exact fun k' hreg => hreg.mono (List.subset_cons_self _ _)
  have hself : Registered (.registered k rec :: history) k := ⟨rec, .head _⟩
  constructor
  · intro k' rec' hrec'
    by_cases hk : k' = k
    · exact hk ▸ hself
    · exact hmore k' (h.known k' rec' (by simpa [hk] using hrec'))
  · rintro k' ⟨rec', hrec'⟩ hnone
    by_cases hk : k' = k
    · simp [hk] at hnone
    · rcases List.mem_cons.mp hrec' with heq | hrec'
      · exact absurd (Observation.registered.inj heq).1 hk
      · obtain ⟨o, hm, ho⟩ := h.missing k' ⟨rec', hrec'⟩ (by simpa [hk] using hnone)
        exact ⟨o, .tail _ hm, ho⟩
  · intro k' o hm ho
    rcases List.mem_cons.mp hm with rfl | hm
    · exact ho.elim
    · obtain ⟨hreg, hgone⟩ := h.ended k' o hm ho
      have hk : k' ≠ k := fun hk => hnew (hk ▸ hreg)
      exact ⟨hmore k' hreg, hgone.imp (fun hnone => by simpa [hk] using hnone) id⟩
  · intro k' rest hio
    obtain ⟨o, hm, ho⟩ := h.pruning k' rest hio
    exact ⟨o, .tail _ hm, ho⟩
  · intro report rest hio
    obtain ⟨hreg, hterminal⟩ := h.reading report rest hio
    exact ⟨hmore _ hreg, hterminal⟩
  · intro t' k' hholds
    obtain ⟨_, hplacing⟩ | ⟨_, hthen⟩ := Call.holds_update.mp hholds
    · obtain rfl : k = k' := hplacing
      refine ⟨hself, ?_⟩
      intro error hm
      rcases List.mem_cons.mp hm with heq | hm
      · cases heq
      · exact hnew (h.ended k _ hm rfl).1
    · obtain ⟨hreg, hthrew⟩ := h.holding t' k' hthen
      refine ⟨hmore k' hreg, ?_⟩
      intro error hm
      rcases List.mem_cons.mp hm with heq | hm
      · cases heq
      · exact hthrew error hm
  · have hother : ∀ t', (calls t').Holds k → False := by
      exact fun t' hholds => hnew (h.holding t' k hholds).1
    intro t₁ t₂ k' h₁ h₂
    obtain ⟨rfl, hk₁⟩ | ⟨_, hthen₁⟩ := Call.holds_update.mp h₁
    · obtain rfl : k = k' := hk₁
      obtain ⟨ht₂, _⟩ | ⟨_, hthen₂⟩ := Call.holds_update.mp h₂
      · exact ht₂.symm
      · exact (hother t₂ hthen₂).elim
    · obtain ⟨_, hk₂⟩ | ⟨_, hthen₂⟩ := Call.holds_update.mp h₂
      · obtain rfl : k = k' := hk₂
        exact (hother t₁ hthen₁).elim
      · exact h.alone t₁ t₂ k' hthen₁ hthen₂

end OutcomeInv

section
variable (lib : Library)

namespace OutcomeInv
variable {s s' : System}

lemma io (h : OutcomeInv s.gateway.orders s.io s.calls s.history) (heff : IoEffect lib s s') :
    OutcomeInv s'.gateway.orders s'.io s'.calls s'.history := by
  cases heff with
  | ordersDone hio => exact h.setIo (by simp [hio]) (by simp) (by simp)
  | orderUnreadable hio hread => exact h.setIo (by simp [hio]) (by simp) (by simp)
  | orderIgnored hio hread => exact h.setIo (by simp [hio]) (by simp) (by simp)
  | @orderRead entry rest report hio hread =>
    obtain ⟨_, rec, hrec, _, _, _, hterminal⟩ := readOrderUpdate_some lib hread
    apply h.setIo (by simp [hio]) (by simp)
    intro report' rest' heq
    obtain ⟨rfl, rfl⟩ := Io.report.inj heq
    exact ⟨h.known _ rec hrec, hterminal⟩
  | @reported report rest hio =>
    obtain ⟨hreg, hterminal⟩ := h.reading report rest hio
    show OutcomeInv (s.gateway.reportUpdate report.update).orders _ _ _
    rw [Gateway.reportUpdate_orders]
    cases hend : report.terminal with
    | false =>
      have hopen : report.update.state = .accepted := by
        by_contra hstate
        exact absurd (hterminal.mpr hstate) (by simp [hend])
      have hseen := h.observe [.reported report.cloid report.update] (by simp [Outcome, hopen])
      exact hseen.setIo (by simp [hio]) (by simp) (by simp)
    | true => exact h.reported hreg (hterminal.mp hend) (by simp [hio]) rest
  | @pruned cloid rest hio =>
    have hended := h.pruning cloid rest hio
    have hseen := (h.pruneCloid (fun _ => hended)).observe [.ended cloid] (by simp [Outcome])
    exact hseen.pruned hio (by simp) rest
  | fillsDone hio => exact h.setIo (by simp [hio]) (by simp) (by simp)
  | fillUnheard hio hcb => exact h.setIo (by simp [hio]) (by simp) (by simp)
  | fillUnreadable hio hcb hread => exact h.setIo (by simp [hio]) (by simp) (by simp)
  | fillIgnored hio hcb hread => exact h.setIo (by simp [hio]) (by simp) (by simp)
  | fillRead hio hcb hread => exact h.setIo (by simp [hio]) (by simp) (by simp)
  | handed hio => exact h.setIo (by simp [hio]) (by simp) (by simp)

lemma receive (h : OutcomeInv s.gateway.orders s.io s.calls s.history) (hidle : s.io = .idle)
    (json : Json) : OutcomeInv (s.receive lib json).gateway.orders (s.receive lib json).io
      (s.receive lib json).calls (s.receive lib json).history := by
  unfold System.receive
  cases workOf lib json with
  | none => exact h
  | quote coin quote =>
    show OutcomeInv (s.gateway.onBbo coin quote).orders _ _ _
    rw [Gateway.onBbo_orders]
    exact h
  | orders entries => exact h.setIo (by simp [hidle]) (by simp) (by simp)
  | fills entries =>
    have hseen := h.observe (s.arrivals entries) (fun o hmem => by
      obtain ⟨k, entry, rfl, _⟩ := mem_arrivals hmem
      simp [Outcome])
    exact hseen.setIo (by simp [hidle]) (by simp) (by simp)

lemma step {a : Action} (h : OutcomeInv s.gateway.orders s.io s.calls s.history)
    (hnew : NewIds s a) (hs : step lib s a = some s') :
    OutcomeInv s'.gateway.orders s'.io s'.calls s'.history := by
  cases effect_of_step lib hs with
  | drawn hcall =>
    have hsame : OutcomeInv s.gateway.orders.fetchAdd s.io s.calls s.history := { h with }
    exact hsame.setCall _ (by simp [Call.Holds])
  | @registered t cloid rec hcall => exact h.register (hnew cloid rec hcall) t rec
  | @rejected t status cloid hcall hkind =>
    exact (h.setCall t (by simp [Call.Holds, hcall])).observe [.rejected cloid] (by simp [Outcome])
  | accepted hcall hkind => exact h.setCall _ (by simp [Call.Holds])
  | refused hcall => exact h.threw (by simp [Call.Holds, hcall]) _
  | cancelUnknown hcall => exact h
  | cancelSent hcall hfound => exact h.setCall _ (by simp [Call.Holds])
  | cancelGone hcall hgone => exact h.setCall _ (by simp [Call.Holds])
  | cancelAnswered hcall => exact h.setCall _ (by simp [Call.Holds])
  | reconciling hcall hcb hfound => exact h.setCall _ (by simp [Call.Holds])
  | @unreconciled t clientOrderId symbol cloid hcall hskip =>
    exact (h.setCall t (by simp [Call.Holds])).observe
      [.returned clientOrderId cloid s.venueFills] (by simp [Outcome])
  | fetched hcall => exact h.setCall _ (by simp [Call.Holds])
  | @reemitted t clientOrderId symbol cloid found reply hcall =>
    exact (h.setCall t (by simp [Call.Holds])).observe [.returned clientOrderId cloid reply]
      (by simp [Outcome])
  | skipped hcall hskip => exact h.setCall _ (by simp [Call.Holds])
  | reemits hcall hfound htid => exact h.setCall _ (by simp [Call.Holds])
  | failed hcall => exact h.setCall _ (by simp [Call.Holds])
  | traded => exact h
  | received hio => exact h.receive lib hio _
  | io heff => exact h.io lib heff

lemma initial (orderUpdateCB fillCB quoteCB : Bool) :
    OutcomeInv (initial orderUpdateCB fillCB quoteCB).gateway.orders
      (initial orderUpdateCB fillCB quoteCB).io (initial orderUpdateCB fillCB quoteCB).calls
      (initial orderUpdateCB fillCB quoteCB).history := by
  constructor <;>
    simp [GatewayRuns.initial, OrderMaps.empty, Registered, Call.Holds]

/-- A submit whose order was refused is the first to end it, just when the order is registered
and not about to be dropped. -/
lemma no_outcome_iff {t : ℕ} {k : String}
    (h : OutcomeInv s.gateway.orders s.io s.calls s.history) (hholds : (s.calls t).Holds k) :
    (∀ earlier ∈ s.history, ¬ Outcome s.gateway.orderUpdateCB k earlier) ↔
      (s.gateway.orderUpdateCB = true →
        s.gateway.orders.byCloid k ≠ none ∧ ∀ rest, s.io ≠ .prune k rest) := by
  obtain ⟨hreg, hthrew⟩ := h.holding t k hholds
  constructor
  · intro hnone hheard
    rw [hheard] at hnone
    constructor
    · intro hmissing
      obtain ⟨o, hm, ho⟩ := h.missing k hreg hmissing
      exact hnone o hm ho
    · intro rest hio
      obtain ⟨o, hm, ho⟩ := h.pruning k rest hio
      exact hnone o hm ho
  · intro hstill o hm ho
    obtain ⟨_, hgone⟩ := h.ended k o hm ho.heard
    cases o with
    | reported k' update =>
      obtain ⟨hkept, hfree⟩ := hstill ho.1
      rcases hgone with hmissing | ⟨rest, hio⟩
      · exact hkept hmissing
      · exact hfree rest hio
    | threw k' error =>
      obtain rfl : k' = k := ho
      exact hthrew error hm
    | _ => exact ho

/-- An update that was read is the first news since the order ended, just when the order is
registered. -/
lemma no_outcome_iff_registered {report : OrderReport} {rest : List Json}
    (h : OutcomeInv s.gateway.orders s.io s.calls s.history) (hio : s.io = .report report rest) :
    (∀ earlier ∈ s.history, ¬ Outcome true report.cloid earlier) ↔
      s.gateway.orders.byCloid report.cloid ≠ none := by
  constructor
  · intro hnone hmissing
    obtain ⟨o, hm, ho⟩ := h.missing _ (h.reading report rest hio).1 hmissing
    exact hnone o hm ho
  · intro hkept o hm ho
    obtain ⟨_, hmissing | ⟨rest', hio'⟩⟩ := h.ended _ o hm ho
    · exact hkept hmissing
    · rw [hio] at hio'
      cases hio'

end OutcomeInv

/-- Steps that bring no news. -/
lemma oneOutcome_of_quiet {s s' : System} {a : Action} (os : List Observation)
    (hcb : s'.gateway.orderUpdateCB = s.gateway.orderUpdateCB)
    (hhistory : s'.history = os ++ s.history) (hos : ∀ o ∈ os, ∀ heard k, ¬ Notice heard k o)
    (hstill : StillRegistered s a) : OneOutcome s' ↔ OneOutcome s ∧ StillRegistered s a := by
  rw [oneOutcome_append hcb hhistory hos, and_iff_left hstill]

/-- Steps whose news are in order exactly when the order is registered. -/
lemma oneOutcome_of_news {s s' : System} {a : Action} {o : Observation}
    (hcb : s'.gateway.orderUpdateCB = s.gateway.orderUpdateCB)
    (hhistory : s'.history = o :: s.history)
    (hiff : (∀ k, Notice s.gateway.orderUpdateCB k o →
      ∀ earlier ∈ s.history, ¬ Outcome s.gateway.orderUpdateCB k earlier) ↔ StillRegistered s a) :
    OneOutcome s' ↔ OneOutcome s ∧ StillRegistered s a := by
  rw [oneOutcome_cons hcb hhistory, hiff, and_comm]

lemma oneOutcome_io {s s' : System} (h : OutcomeInv s.gateway.orders s.io s.calls s.history)
    (heff : IoEffect lib s s') : OneOutcome s' ↔ OneOutcome s ∧ StillRegistered s .io := by
  cases heff with
  | @reported report rest hio =>
    refine oneOutcome_of_news (Gateway.reportUpdate_orderUpdateCB _ _) rfl ?_
    have hiff := h.no_outcome_iff_registered hio
    constructor
    · intro hquiet hheard report' rest' hio'
      obtain ⟨rfl, _⟩ := Io.report.inj (hio.symm.trans hio')
      rw [hheard] at hquiet
      exact hiff.mp (hquiet report.cloid ⟨rfl, rfl⟩)
    · rintro hstill k ⟨hheard, rfl⟩
      rw [hheard]
      exact hiff.mpr (hstill hheard report rest hio)
  | @pruned cloid rest hio =>
    exact oneOutcome_of_quiet [.ended cloid] rfl rfl (by simp [Notice])
      (by simp [StillRegistered, hio])
  | _ hio => exact oneOutcome_of_quiet [] rfl rfl (by simp) (by simp [StillRegistered, hio])

lemma oneOutcome_receive (s : System) (json : Json) :
    OneOutcome (s.receive lib json) ↔ OneOutcome s ∧ StillRegistered s (.receive json) := by
  unfold System.receive
  cases workOf lib json with
  | none => exact oneOutcome_of_quiet [] rfl rfl (by simp) trivial
  | quote coin quote =>
    exact oneOutcome_of_quiet [] (Gateway.onBbo_orderUpdateCB _ _ _) rfl (by simp) trivial
  | orders entries => exact oneOutcome_of_quiet [] rfl rfl (by simp) trivial
  | fills entries =>
    have hquiet : ∀ o ∈ s.arrivals entries, ∀ heard k, ¬ Notice heard k o := by
      intro o hmem heard k
      obtain ⟨k', entry, rfl, _⟩ := mem_arrivals hmem
      exact id
    exact oneOutcome_of_quiet (s.arrivals entries) rfl rfl hquiet trivial

/-- A step keeps outcomes single exactly when the orders it speaks of are still registered. -/
lemma oneOutcome_step {s s' : System} {a : Action}
    (h : OutcomeInv s.gateway.orders s.io s.calls s.history) (hs : step lib s a = some s') :
    OneOutcome s' ↔ OneOutcome s ∧ StillRegistered s a := by
  cases effect_of_step lib hs with
  | @registered t cloid rec hcall =>
    exact oneOutcome_of_quiet [.registered cloid rec] rfl rfl (by simp [Notice]) trivial
  | @rejected t status cloid hcall hkind =>
    exact oneOutcome_of_quiet [.rejected cloid] rfl rfl (by simp [Notice]) trivial
  | @refused t cloid reason hcall =>
    refine oneOutcome_of_news rfl rfl ?_
    have hiff := h.no_outcome_iff (t := t) (k := cloid) (by simp [Call.Holds, hcall])
    constructor
    · intro hquiet hheard k reason' hcall'
      obtain ⟨rfl, _⟩ := Call.refused.inj (hcall.symm.trans hcall')
      exact hiff.mp (hquiet cloid rfl) hheard
    · rintro hstill k rfl
      exact hiff.mpr fun hheard => hstill hheard cloid reason hcall
  | @unreconciled t clientOrderId symbol cloid hcall hskip =>
    exact oneOutcome_of_quiet [.returned clientOrderId cloid s.venueFills] rfl rfl
      (by simp [Notice]) trivial
  | @reemitted t clientOrderId symbol cloid found reply hcall =>
    exact oneOutcome_of_quiet [.returned clientOrderId cloid reply] rfl rfl (by simp [Notice])
      trivial
  | received hio => exact oneOutcome_receive lib s _
  | io heff => exact oneOutcome_io lib h heff
  | _ => exact oneOutcome_of_quiet [] rfl rfl (by simp) trivial

/-- The runs whose submits register under new ids and whose orders have one outcome are exactly
those in which, besides, submits throw and the stream's thread reports while the order is
registered. -/
theorem one_outcome_exactly {orderUpdateCB fillCB quoteCB : Bool} {as : List Action} {s : System} :
    Run (step lib) NewIds (GatewayRuns.initial orderUpdateCB fillCB quoteCB) as s ∧ OneOutcome s ↔
      Run (step lib) (fun s a => NewIds s a ∧ StillRegistered s a)
        (GatewayRuns.initial orderUpdateCB fillCB quoteCB) as s := by
  have hinv : ∀ {as s}, Run (step lib) NewIds
      (GatewayRuns.initial orderUpdateCB fillCB quoteCB) as s →
      OutcomeInv s.gateway.orders s.io s.calls s.history := by
    intro as s hrun
    apply Run.invariant (P := fun s => OutcomeInv s.gateway.orders s.io s.calls s.history)
      (OutcomeInv.initial _ _ _) _ hrun
    exact fun s a s' hs hnew hstep => hs.step lib hnew hstep
  constructor
  · rintro ⟨hrun, hone⟩
    induction hrun with
    | nil => exact .nil
    | snoc prior meets next ih =>
      obtain ⟨hbefore, hstill⟩ := (oneOutcome_step lib (hinv prior) next).mp hone
      exact (ih hbefore).snoc ⟨meets, hstill⟩ next
  · intro hrun
    refine ⟨hrun.weaken fun _ _ h => h.1, ?_⟩
    induction hrun with
    | nil => exact List.Pairwise.nil
    | snoc prior meets next ih =>
      have hprior := hinv (prior.weaken fun _ _ h => h.1)
      exact (oneOutcome_step lib hprior next).mpr ⟨ih, meets.2⟩

end

def rejectedMessage : Json :=
  .object [("channel", .string "orderUpdates"), ("data", .array [.object
    [("order", .object [("cloid", .string ownCloid)]), ("status", .string "rejected")]])]

/-- The venue rejects an order and tells the stream first: its thread reports the rejection and
drops the record while the reply is in flight, and the submit throws all the same. -/
theorem rejected_twice : ∃ s, Run (step noNumbers) anyStep
    (GatewayRuns.initial true true true) [.draw 0 1000 "a" "BTC" 1, .register 0,
      .receive rejectedMessage, .io, .io, .io, .placed 0 ⟨.error, "Post only"⟩, .prune 0] s ∧
    ¬ OneOutcome s := by
  refine ⟨_, run_of_execute rfl, ?_⟩
  intro hone
  have hthrew := List.rel_of_pairwise_cons hone
    (.tail _ (.tail _ (.head _))) ownCloid ⟨rfl, rfl, by decide⟩
  exact hthrew rfl

section
variable (lib : Library)

lemma drawn_length {as : List Action} {s₀ w : System × Trail}
    (h : Run (watched (step lib) Trail.note) anyStep s₀ as w) :
    w.2.drawn.length = s₀.2.drawn.length + as.countP Action.draws := by
  induction h with
  | nil => simp
  | @snoc as w w' a prior meets next ih =>
    obtain ⟨_, hnote⟩ := watched_eq_some next
    rw [hnote, List.countP_append, ← Nat.add_assoc, ← ih]
    cases a <;> simp [Trail.note, Action.draws]

/-- Ids are new in all runs that draw fewer than 2^64 of them. -/
theorem newIds_of_few {orderUpdateCB fillCB quoteCB : Bool} {as : List Action} {s : System}
    (h : Run (step lib) anyStep (GatewayRuns.initial orderUpdateCB fillCB quoteCB) as s)
    (hfew : as.countP Action.draws < 2^64) :
    Run (step lib) NewIds (GatewayRuns.initial orderUpdateCB fillCB quoteCB) as s := by
  induction h with
  | nil => exact .nil
  | @snoc as s s' a prior meets next ih =>
    have hfew' : as.countP Action.draws < 2^64 := by
      rw [List.countP_append] at hfew
      omega
    -- The trail of a run that has few draws knows which ids were registered.
    obtain ⟨n, hwatched⟩ := prior.watch Trail.note Trail.start
    have hdrawn := drawn_length lib hwatched
    simp only [Trail.start, List.length_nil, Nat.zero_add] at hdrawn
    have htrail := trailInv_of_run lib hwatched (hdrawn.trans_lt hfew')
    refine (ih hfew').snoc ?_ next
    cases a with
    | register t =>
      rintro k rec hcall ⟨rec', hreg⟩
      exact (htrail.naming t k rec hcall).2 rec' hreg
    | _ => trivial

end

end HyperliquidApi.GatewayRuns
