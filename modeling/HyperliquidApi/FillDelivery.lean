import HyperliquidApi.GatewayEffects

/-!
# Delivery of live fills

Order updates and fills arrive on two channels in any order, and a terminal order update drops
the record that later fills of the order are looked up in. Fills reach their callback in
runs that handle each own fill before the order's terminal update, after at most two steps of the
stream's thread for each entry of the message.
-/
namespace HyperliquidApi.GatewayRuns
open Runs

section
variable (lib : Library)

/-- The fields of a fill that are read once its order is known. -/
def WellFormed (entry : Json) : Prop :=
  entry.Readable lib.asULL "tid" ∧ entry.Readable Json.asBool "crossed"

/-- The callback has received this fill, under a client id it was submitted with. -/
def Handed (s : System) (k : String) (entry : Json) : Prop :=
  ∃ rec fill, .registered k rec ∈ s.history ∧ fillEvent lib rec entry = .ok fill ∧
    .fill fill ∈ s.gateway.delivered

/-- A fill of an accepted order that its caller does not know of. -/
def Owed (s : System) (k : String) (entry : Json) : Prop :=
  .rejected k ∉ s.history ∧ WellFormed lib entry ∧ ¬ Handed lib s k entry

/-- The stream's thread has yet to look at the fill, or is about to call the callback with it. -/
def Waiting (s : System) (k : String) (entry : Json) : Prop :=
  match s.io with
  | .fills rest => entry ∈ rest
  | .hand fill rest =>
    entry ∈ rest ∨ ∃ rec, .registered k rec ∈ s.history ∧ fillEvent lib rec entry = .ok fill
  | _ => False

/-- The own fills that have arrived in `s` have been handed out in `s'`. -/
def ReachedBy (s s' : System) : Prop :=
  s'.gateway.fillCB = true → ∀ k entry, .arrived k entry ∈ s.history → .rejected k ∉ s'.history →
    WellFormed lib entry → Handed lib s' k entry

/-- No own fill is lost. -/
def FillsReach (s : System) : Prop := ReachedBy lib s s

/-- The steps of the stream's thread after which no fill of its message is left to handle. -/
def Io.steps : Io → ℕ
  | .fills rest => 2 * rest.length
  | .hand _ rest => 2 * rest.length + 1
  | _ => 0

def Action.isIo : Action → Bool
  | .io => true
  | _ => false

def EntryReadable (s : System) (entry : Json) : Prop :=
  entry.Readable Json.asString "cloid" ∧ ∀ k, entry.find "cloid" = some (.string k) →
    s.gateway.orders.byCloid k ≠ none → WellFormed lib entry

/-- A fill is taken up while its order has not ended, and an entry that cannot be read has
no owed fill behind it. -/
def TakesFillsUp (s : System) : Action → Prop
  | .io =>
    match s.io with
    | .fills (entry :: rest) =>
      (∀ k, .arrived k entry ∈ s.history → Owed lib s k entry → .ended k ∉ s.history) ∧
      (EntryReadable lib s entry ∨ ∀ later ∈ rest, ∀ k, .arrived k later ∈ s.history →
        ¬ Owed lib s k later)
    | _ => True
  | _ => True

lemma fillEvent_ok (rec : OrderRec) {entry : Json} (h : WellFormed lib entry) :
    ∃ fill, fillEvent lib rec entry = .ok fill := by
  obtain ⟨tid, htid⟩ := (Json.value_ok_iff _ _ _ 0).mpr h.1
  obtain ⟨crossed, hcrossed⟩ := (Json.value_ok_iff _ _ _ false).mpr h.2
  simp [fillEvent, htid, hcrossed, bind, Except.bind, pure, Except.pure]

lemma readFill_registered {m : OrderMaps} {entry : Json} {k : String} {rec : OrderRec}
    (hk : entry.find "cloid" = some (.string k)) (hne : k ≠ "") (hrec : m.byCloid k = some rec)
    (h : WellFormed lib entry) : ∃ fill, readFill lib m entry = .ok (some fill) := by
  obtain ⟨fill, hfill⟩ := fillEvent_ok lib rec h
  have hv : entry.value Json.asString "cloid" "" = .ok k := Json.value_of_find (a := k) hk (by rfl) ""
  have hrec' : m.recForCloid k = some rec := hrec
  exact ⟨fill, by simp [readFill, hv, hne, hrec', hfill, bind, Except.bind, pure, Except.pure]⟩

lemma readFill_readable {s : System} {entry : Json} (h : EntryReadable lib s entry) :
    ∃ read, readFill lib s.gateway.orders entry = .ok read := by
  obtain ⟨k, hk⟩ := (Json.value_ok_iff _ _ _ "").mpr h.1
  unfold readFill
  by_cases hempty : k = ""
  · simp [hk, hempty, bind, Except.bind, pure, Except.pure]
  · cases hrec : s.gateway.orders.recForCloid k with
    | none => simp [hk, hempty, hrec, bind, Except.bind, pure, Except.pure]
    | some rec =>
      have hreg : s.gateway.orders.byCloid k ≠ none := by
        rw [show s.gateway.orders.byCloid k = some rec from hrec]
        simp
      obtain ⟨fill, hfill⟩ := fillEvent_ok lib rec
        (h.2 k (Json.find_of_string_value hk hempty) hreg)
      simp [hk, hempty, hrec, hfill, bind, Except.bind, pure, Except.pure]

/-- What holds in all runs that take fills up in time. -/
structure FillInv (s : System) : Prop where
  known : ∀ k rec, s.gateway.orders.byCloid k = some rec → .registered k rec ∈ s.history
  kept : ∀ k, s.Submitted k → .rejected k ∉ s.history → .ended k ∉ s.history →
    s.gateway.orders.byCloid k ≠ none
  named : ∀ k rec, .registered k rec ∈ s.history → k ≠ ""
  naming : ∀ t k rec, s.calls t = .naming k rec → k ≠ ""
  refused : ∀ t k reason, s.calls t = .refused k reason → .rejected k ∈ s.history
  arrived : ∀ k entry, .arrived k entry ∈ s.history →
    entry.find "cloid" = some (.string k) ∧ s.Submitted k
  waiting : s.gateway.fillCB = true → ∀ k entry, .arrived k entry ∈ s.history →
    Owed lib s k entry → Waiting lib s k entry

/-- What has been handed stays so. -/
lemma Handed.mono {s s' : System} {k : String} {entry : Json} (h : Handed lib s k entry)
    (hhist : s.history ⊆ s'.history) (hdel : s.gateway.delivered ⊆ s'.gateway.delivered) :
    Handed lib s' k entry := by
  obtain ⟨rec, fill, hreg, hfill, hmem⟩ := h
  exact ⟨rec, fill, hhist hreg, hfill, hdel hmem⟩

lemma Owed.before {s s' : System} {k : String} {entry : Json} (h : Owed lib s' k entry)
    (hhist : s.history ⊆ s'.history) (hdel : s.gateway.delivered ⊆ s'.gateway.delivered) :
    Owed lib s k entry :=
  ⟨fun hrej => h.1 (hhist hrej), h.2.1, fun hh => h.2.2 (hh.mono lib hhist hdel)⟩

lemma Waiting.mono {s s' : System} {k : String} {entry : Json} (h : Waiting lib s k entry)
    (hio : s'.io = s.io) (hhist : s.history ⊆ s'.history) : Waiting lib s' k entry := by
  unfold Waiting at h ⊢
  rw [hio]
  cases hs : s.io with
  | fills rest => simpa [hs] using h
  | hand fill rest =>
    simp only [hs] at h ⊢
    rcases h with hmem | ⟨rec, hreg, hfill⟩
    · exact .inl hmem
    · exact .inr ⟨rec, hhist hreg, hfill⟩
  | _ => simp [hs] at h

lemma FillInv.setCall {s : System} (h : FillInv lib s) (t : ℕ) {call : Call}
    (hnaming : ∀ k rec, call = .naming k rec → k ≠ "")
    (hrefused : ∀ k reason, call = .refused k reason → .rejected k ∈ s.history) :
    FillInv lib (s.setCall t call) where
  known := h.known
  kept := h.kept
  named := h.named
  naming t' k rec hcall := by
    by_cases ht : t' = t
    · subst ht
      exact hnaming k rec (by simpa [System.setCall] using hcall)
    · exact h.naming t' k rec (by simpa [System.setCall, ht] using hcall)
  refused t' k reason hcall := by
    by_cases ht : t' = t
    · subst ht
      exact hrefused k reason (by simpa [System.setCall] using hcall)
    · exact h.refused t' k reason (by simpa [System.setCall, ht] using hcall)
  arrived := h.arrived
  waiting := h.waiting

lemma FillInv.observe {s : System} (h : FillInv lib s) {o : Observation}
    (hreg : ∀ k rec, o ≠ .registered k rec) (harr : ∀ k entry, o ≠ .arrived k entry) :
    FillInv lib (s.observe o) := by
  have hsub : s.history ⊆ (s.observe o).history := List.subset_cons_self _ _
  have hreg' : ∀ k rec, .registered k rec ∈ (s.observe o).history → .registered k rec ∈ s.history := by
    intro k rec hm
    rcases List.mem_cons.mp hm with heq | hm
    · exact absurd heq.symm (hreg k rec)
    · exact hm
  have harr' : ∀ k e, .arrived k e ∈ (s.observe o).history → .arrived k e ∈ s.history := by
    intro k e hm
    rcases List.mem_cons.mp hm with heq | hm
    · exact absurd heq.symm (harr k e)
    · exact hm
  exact
    { known := fun k rec hk => hsub (h.known k rec hk)
      kept := fun k hk hrej hend => by
        obtain ⟨rec, hrec⟩ := hk
        exact h.kept k ⟨rec, hreg' k rec hrec⟩ (fun hm => hrej (hsub hm)) (fun hm => hend (hsub hm))
      named := fun k rec hm => h.named k rec (hreg' k rec hm)
      naming := h.naming
      refused := fun t k reason hcall => hsub (h.refused t k reason hcall)
      arrived := fun k e hm => by
        obtain ⟨hk, rec, hrec⟩ := h.arrived k e (harr' k e hm)
        exact ⟨hk, rec, hsub hrec⟩
      waiting := fun hcb k e hm howed =>
        (h.waiting hcb k e (harr' k e hm) (howed.before lib hsub (fun _ hx => hx))).mono lib rfl
          hsub }

lemma FillInv.setGateway {s : System} (h : FillInv lib s) {p : Gateway}
    (hby : p.orders.byCloid = s.gateway.orders.byCloid) (hcb : p.fillCB = s.gateway.fillCB)
    (hdel : s.gateway.delivered ⊆ p.delivered) : FillInv lib { s with gateway := p } where
  known k rec hk := h.known k rec (by rw [← hby]; exact hk)
  kept k hk hrej hend := by
    show p.orders.byCloid k ≠ none
    rw [hby]
    exact h.kept k hk hrej hend
  named := h.named
  naming := h.naming
  refused := h.refused
  arrived := h.arrived
  waiting hset k entry harr howed := by
    have hbefore := howed.before lib (s := s) (fun _ hx => hx) hdel
    exact (h.waiting (hcb ▸ hset) k entry harr hbefore).mono lib rfl (fun _ hx => hx)

/-- A record may be dropped once its order is rejected or has ended. -/
lemma FillInv.prune {s : System} (h : FillInv lib s) {k : String}
    (hdead : .rejected k ∈ s.history ∨ .ended k ∈ s.history) :
    FillInv lib { s with gateway := s.gateway.pruneCloid k } where
  known k' rec hk' := h.known k' rec (OrderMaps.pruneCloid_eq_some.mp hk').2
  kept k' hk' hrej hend := by
    have hk : k' ≠ k := by
      rintro rfl
      rcases hdead with hd | hd
      · exact hrej hd
      · exact hend hd
    simpa [hk] using h.kept k' hk' hrej hend
  named := h.named
  naming := h.naming
  refused := h.refused
  arrived := h.arrived
  waiting hset k' entry harr howed := by
    have hbefore := howed.before lib (s := s) (fun _ hx => hx) (fun _ hx => hx)
    exact (h.waiting hset k' entry harr hbefore).mono lib rfl (fun _ hx => hx)

lemma FillInv.register {s : System} (h : FillInv lib s) {k : String} (hk : k ≠ "") (rec : OrderRec) :
    FillInv lib ({ s with gateway := { s.gateway with orders := s.gateway.orders.register k rec } }
      |>.observe (.registered k rec)) where
  known k' rec' hk' := by
    by_cases heq : k' = k
    · subst heq
      have hrec : rec = rec' := by simpa [System.observe] using hk'
      simp [System.observe, hrec]
    · exact List.mem_cons_of_mem _ (h.known k' rec' (by simpa [System.observe, heq] using hk'))
  kept k' hk' hrej hend := by
    by_cases heq : k' = k
    · simp [System.observe, heq]
    · obtain ⟨rec', hrec'⟩ := hk'
      have hbefore : s.Submitted k' := ⟨rec', by simpa [System.observe, heq] using hrec'⟩
      have hkeep := h.kept k' hbefore (fun hm => hrej (List.mem_cons_of_mem _ hm))
        (fun hm => hend (List.mem_cons_of_mem _ hm))
      simpa [System.observe, heq] using hkeep
  named k' rec' hm := by
    rcases List.mem_cons.mp hm with heq | hm
    · cases heq
      exact hk
    · exact h.named k' rec' hm
  naming := h.naming
  refused t k' reason hcall := List.mem_cons_of_mem _ (h.refused t k' reason hcall)
  arrived k' entry hm := by
    rcases List.mem_cons.mp hm with heq | hm
    · cases heq
    · obtain ⟨hc, rec', hrec'⟩ := h.arrived k' entry hm
      exact ⟨hc, rec', List.mem_cons_of_mem _ hrec'⟩
  waiting hset k' entry hm howed := by
    rcases List.mem_cons.mp hm with heq | hm
    · cases heq
    · have hbefore := howed.before lib (s := s) (List.subset_cons_self _ _) (fun _ hx => hx)
      exact (h.waiting hset k' entry hm hbefore).mono lib rfl (List.subset_cons_self _ _)

lemma FillInv.setIo {s : System} (h : FillInv lib s) {io : Io}
    (hw : s.gateway.fillCB = true → ∀ k entry, .arrived k entry ∈ s.history →
      Owed lib s k entry → Waiting lib s k entry → Waiting lib { s with io } k entry) :
    FillInv lib { s with io } where
  known := h.known
  kept := h.kept
  named := h.named
  naming := h.naming
  refused := h.refused
  arrived := h.arrived
  waiting hset k entry harr howed := hw hset k entry harr howed (h.waiting hset k entry harr howed)

/-- Between fills messages nothing waits, so moving on leaves nothing behind. -/
lemma FillInv.setIo_of_not_waiting {s : System} (h : FillInv lib s) {io : Io}
    (hnone : ∀ k entry, ¬ Waiting lib s k entry) : FillInv lib { s with io } := by
  apply h.setIo
  intro _ k entry _ _ hwaiting
  exact absurd hwaiting (hnone k entry)

lemma FillInv.receiveFills {s : System} (h : FillInv lib s) (hidle : s.io = .idle) (entries : List Json) :
    FillInv lib { s with io := .fills entries, history := s.arrivals entries ++ s.history } := by
  have hsub : s.history ⊆ s.arrivals entries ++ s.history := List.subset_append_right _ _
  have hold : ∀ o ∈ s.arrivals entries ++ s.history, (∀ k entry, o ≠ .arrived k entry) →
      o ∈ s.history := by
    intro o ho hne
    rcases List.mem_append.mp ho with hnew | hmem
    · obtain ⟨k, entry, rfl, _⟩ := mem_arrivals hnew
      exact absurd rfl (hne k entry)
    · exact hmem
  exact
    { known := fun k rec hk => hsub (h.known k rec hk)
      kept := fun k hk hrej hend => by
        obtain ⟨rec, hrec⟩ := hk
        exact h.kept k ⟨rec, hold _ hrec (by simp)⟩ (fun hm => hrej (hsub hm))
          (fun hm => hend (hsub hm))
      named := fun k rec hm => h.named k rec (hold _ hm (by simp))
      naming := h.naming
      refused := fun t k reason hcall => hsub (h.refused t k reason hcall)
      arrived := fun k entry hm => by
        rcases List.mem_append.mp hm with hnew | hmem
        · obtain ⟨k', entry', heq, _, hc, rec, hrec⟩ := mem_arrivals hnew
          cases heq
          exact ⟨hc, rec, hsub hrec⟩
        · obtain ⟨hc, rec, hrec⟩ := h.arrived k entry hmem
          exact ⟨hc, rec, hsub hrec⟩
      waiting := fun hset k entry hm howed => by
        rcases List.mem_append.mp hm with hnew | hmem
        · obtain ⟨k', entry', heq, hmem, _⟩ := mem_arrivals hnew
          cases heq
          exact hmem
        · have hwaiting := h.waiting hset k entry hmem
            (howed.before lib (s := s) hsub (fun _ hx => hx))
          simp [Waiting, hidle] at hwaiting }

lemma FillInv.receive {s : System} (h : FillInv lib s) (hidle : s.io = .idle) (json : Json) :
    FillInv lib (s.receive lib json) := by
  unfold System.receive
  cases workOf lib json with
  | none => exact h
  | quote coin bbo =>
    exact h.setGateway lib (by simp) (by simp) (s.gateway.delivered_subset_onBbo coin bbo)
  | orders entries =>
    apply h.setIo_of_not_waiting
    intro k entry
    simp [Waiting, hidle]
  | fills entries => exact h.receiveFills lib hidle entries

/-- An owed fill is read successfully when its turn comes: its order is still registered. -/
lemma FillInv.readFill_owed {s : System} (h : FillInv lib s) {k : String} {entry : Json}
    (harr : .arrived k entry ∈ s.history) (howed : Owed lib s k entry)
    (hlive : .ended k ∉ s.history) :
    ∃ fill, readFill lib s.gateway.orders entry = .ok (some fill) := by
  obtain ⟨hc, hsub⟩ := h.arrived k entry harr
  have hkept := h.kept k hsub howed.1 hlive
  obtain ⟨rec, hrec⟩ := Option.ne_none_iff_exists'.mp hkept
  exact readFill_registered lib hc (h.named k rec (h.known k rec hrec)) hrec howed.2.1

lemma FillInv.ioStep {s s' : System} (h : FillInv lib s) (hok : TakesFillsUp lib s .io)
    (hs : IoEffect lib s s') : FillInv lib s' := by
  cases hs with
  | ordersDone hio =>
    apply h.setIo_of_not_waiting
    simp [Waiting, hio]
  | orderUnreadable hio _ =>
    apply h.setIo_of_not_waiting
    simp [Waiting, hio]
  | orderIgnored hio _ =>
    apply h.setIo_of_not_waiting
    simp [Waiting, hio]
  | orderRead hio _ =>
    apply h.setIo_of_not_waiting
    simp [Waiting, hio]
  | @reported report rest hio =>
    have hobserved := h.observe lib (o := .reported report.cloid report.update)
      (by simp) (by simp)
    have hreported := hobserved.setGateway lib (p := s.gateway.reportUpdate report.update)
      (by simp [System.observe]) (by simp [System.observe])
      (s.gateway.delivered_subset_reportUpdate report.update)
    apply hreported.setIo_of_not_waiting
    simp [Waiting, System.observe, hio]
  | @pruned cloid rest hio =>
    have hobserved := h.observe lib (o := .ended cloid) (by simp) (by simp)
    have hpruned := hobserved.prune lib (k := cloid) (.inr (by simp [System.observe]))
    apply hpruned.setIo_of_not_waiting
    simp [Waiting, System.observe, hio]
  | fillsDone hio =>
    apply h.setIo_of_not_waiting
    simp [Waiting, hio]
  | fillUnheard hio hcb =>
    apply h.setIo
    intro hset
    rw [hcb] at hset
    cases hset
  | @fillUnreadable entry rest e hio hcb hread =>
    simp only [TakesFillsUp, hio] at hok
    obtain ⟨hlive, hreadable⟩ := hok
    apply h.setIo
    intro _ k later harr howed hwaiting
    simp only [Waiting, hio, List.mem_cons] at hwaiting
    rcases hwaiting with rfl | hmem
    · obtain ⟨fill, hfill⟩ := h.readFill_owed lib harr howed (hlive k harr howed)
      simp [hread] at hfill
    · rcases hreadable with hreads | hfree
      · obtain ⟨read, hok⟩ := readFill_readable lib hreads
        simp [hread] at hok
      · exact absurd howed (hfree later hmem k harr)
  | @fillIgnored entry rest hio hcb hread =>
    simp only [TakesFillsUp, hio] at hok
    apply h.setIo
    intro _ k later harr howed hwaiting
    simp only [Waiting, hio, List.mem_cons] at hwaiting
    rcases hwaiting with rfl | hmem
    · obtain ⟨fill, hfill⟩ := h.readFill_owed lib harr howed (hok.1 k harr howed)
      simp [hread] at hfill
    · exact hmem
  | @fillRead entry rest fill hio hcb hread =>
    apply h.setIo
    intro _ k later harr howed hwaiting
    simp only [Waiting, hio, List.mem_cons] at hwaiting
    rcases hwaiting with rfl | hmem
    · obtain ⟨k', rec, hc, _, hrec, hfill⟩ := readFill_some lib hread
      rw [(h.arrived k later harr).1] at hc
      cases hc
      exact .inr ⟨rec, h.known k rec hrec, hfill⟩
    · exact .inl hmem
  | @handed fill rest hio =>
    have hdelivered := h.setGateway lib (p := s.gateway.deliver (.fill fill)) rfl rfl
      (List.subset_append_left _ _)
    apply hdelivered.setIo
    intro _ k entry harr howed hwaiting
    simp only [Waiting, hio] at hwaiting
    rcases hwaiting with hmem | ⟨rec, hreg, hfill⟩
    · exact hmem
    · exact absurd ⟨rec, fill, hreg, hfill, by simp⟩ howed.2.2

/-- A call that moves on without registering or refusing anything. -/
lemma FillInv.moveCall {s : System} (h : FillInv lib s) (t : ℕ) (call : Call)
    (hnaming : ∀ k rec, call ≠ .naming k rec) (hrefused : ∀ k reason, call ≠ .refused k reason) :
    FillInv lib (s.setCall t call) :=
  h.setCall lib t (fun k rec heq => absurd heq (hnaming k rec))
    (fun k reason heq => absurd heq (hrefused k reason))

lemma FillInv.step {s s' : System} {a : Action} (h : FillInv lib s) (hok : TakesFillsUp lib s a)
    (hs : Effect lib s a s') : FillInv lib s' := by
  cases hs with
  | drawn hcall =>
    have hdrawn := h.setGateway lib (p := { s.gateway with orders := s.gateway.orders.fetchAdd })
      rfl rfl (fun _ hx => hx)
    apply hdrawn.setCall
    · intro k rec heq
      rw [← (Call.naming.inj heq).1]
      exact formatCloid_ne_empty _ _
    · simp
  | @registered t k rec hcall =>
    have hregistered := h.register lib (h.naming t k rec hcall) rec
    exact hregistered.moveCall lib t (.placing k) (by simp) (by simp)
  | @rejected t status k hcall hkind =>
    have hobserved := h.observe lib (o := .rejected k) (by simp) (by simp)
    apply hobserved.setCall
    · intro k' rec heq
      cases heq
    · intro k' reason heq
      cases heq
      simp [System.observe]
  | accepted hcall hkind => exact h.moveCall lib _ _ (by simp) (by simp)
  | @refused t k reason hcall =>
    have hpruned := h.prune lib (k := k) (.inl (h.refused t k reason hcall))
    have hmoved := hpruned.moveCall lib t .idle (by simp) (by simp)
    exact hmoved.observe lib (by simp) (by simp)
  | cancelUnknown hcall => exact h
  | cancelSent hcall hfound => exact h.moveCall lib _ _ (by simp) (by simp)
  | cancelGone hcall hgone => exact h.moveCall lib _ _ (by simp) (by simp)
  | cancelAnswered hcall => exact h.moveCall lib _ _ (by simp) (by simp)
  | reconciling hcall hcb hfound => exact h.moveCall lib _ _ (by simp) (by simp)
  | @unreconciled t _ _ _ hcall hskip =>
    have hmoved := h.moveCall lib t .idle (by simp) (by simp)
    exact hmoved.observe lib (by simp) (by simp)
  | fetched hcall => exact h.moveCall lib _ _ (by simp) (by simp)
  | @reemitted t _ _ _ _ _ hcall =>
    have hmoved := h.moveCall lib t .idle (by simp) (by simp)
    exact hmoved.observe lib (by simp) (by simp)
  | skipped hcall hskip => exact h.moveCall lib _ _ (by simp) (by simp)
  | @reemits t clientOrderId symbol cloid found reply rest fill hcall hfound htid =>
    have hmoved := h.moveCall lib t
      (.reemitting clientOrderId symbol cloid found reply rest) (by simp) (by simp)
    exact hmoved.setGateway lib rfl rfl (List.subset_append_left _ _)
  | failed hcall => exact h.moveCall lib _ _ (by simp) (by simp)
  | traded => exact ⟨h.known, h.kept, h.named, h.naming, h.refused, h.arrived, h.waiting⟩
  | received hio => exact h.receive lib hio _
  | io hio => exact h.ioStep lib hok hio

lemma fillInv_initial (orderUpdateCB fillCB quoteCB : Bool) :
    FillInv lib (initial orderUpdateCB fillCB quoteCB) where
  known k rec hk := by cases hk
  kept k hk := by
    obtain ⟨rec, hrec⟩ := hk
    cases hrec
  named k rec hm := by cases hm
  naming t k rec hcall := by cases hcall
  refused t k reason hcall := by cases hcall
  arrived k entry hm := by cases hm
  waiting _ k entry hm := by cases hm

/-! Once no step is left, nothing waits. -/

lemma not_waiting {s : System} (h : s.io.steps = 0) (k : String) (entry : Json) :
    ¬ Waiting lib s k entry := by
  unfold Waiting
  cases hio : s.io with
  | fills rest =>
    have hrest : rest = [] := by simpa [hio, Io.steps] using h
    simp [hrest]
  | hand fill rest => simp [hio, Io.steps] at h
  | _ => simp

lemma FillInv.reachedBy {s s₀ : System} (h : FillInv lib s) (hsteps : s.io.steps = 0)
    (hhist : s₀.history ⊆ s.history) : ReachedBy lib s₀ s := by
  intro hcb k entry harr hrej hwell
  by_contra hhanded
  have hwaiting := h.waiting hcb k entry (hhist harr) ⟨hrej, hwell, hhanded⟩
  exact not_waiting lib hsteps k entry hwaiting

/-- Only the thread itself moves on in its message, by at least one step. -/
lemma steps_left {s s' : System} {a : Action} (hs : Effect lib s a s') :
    s.io.steps = 0 ∨ s'.io.steps + (if a.isIo then 1 else 0) ≤ s.io.steps := by
  cases hs with
  | received hio => exact .inl (by simp [hio, Io.steps])
  | io heff =>
    cases heff with
    | fillUnheard hio _ =>
      right
      simp only [hio, Io.steps, Action.isIo, List.length_cons, if_true]
      omega
    | fillUnreadable hio _ _ =>
      right
      simp only [hio, Io.steps, Action.isIo, List.length_cons, if_true]
      omega
    | fillIgnored hio _ _ =>
      right
      simp only [hio, Io.steps, Action.isIo, List.length_cons, if_true]
      omega
    | fillRead hio _ _ =>
      right
      simp only [hio, Io.steps, Action.isIo, List.length_cons, if_true]
      omega
    | handed hio =>
      right
      simp only [hio, Io.steps, Action.isIo, if_true, le_refl]
    | ordersDone hio => exact .inl (by simp [hio, Io.steps])
    | orderUnreadable hio _ => exact .inl (by simp [hio, Io.steps])
    | orderIgnored hio _ => exact .inl (by simp [hio, Io.steps])
    | orderRead hio _ => exact .inl (by simp [hio, Io.steps])
    | reported hio => exact .inl (by simp [hio, Io.steps])
    | pruned hio => exact .inl (by simp [hio, Io.steps])
    | fillsDone hio => exact .inl (by simp [hio, Io.steps])
  | _ => exact .inr (by simp [System.setCall, System.observe, Action.isIo])

lemma ReachedBy.later {s₀ s s' : System} {a : Action} (h : ReachedBy lib s₀ s)
    (hs : Effect lib s a s') : ReachedBy lib s₀ s' := by
  obtain ⟨os, hos⟩ := history_grows lib hs
  obtain ⟨hdel, hcb⟩ := delivered_grows lib hs
  have hhist : s.history ⊆ s'.history := hos ▸ List.subset_append_right os s.history
  intro hset k entry harr hrej hwell
  have hhanded := h (hcb ▸ hset) k entry harr (fun hmem => hrej (hhist hmem)) hwell
  exact hhanded.mono lib hhist hdel

/-- Enough steps of the thread, with any others in between, hand out what has arrived. -/
lemma FillInv.reached {s s' : System} {more : List Action} (h : FillInv lib s)
    (hmore : Run (GatewayRuns.step lib) (TakesFillsUp lib) s more s')
    (hsteps : s.io.steps ≤ more.countP Action.isIo) : ReachedBy lib s s' := by
  suffices hleft : FillInv lib s' ∧ s.history ⊆ s'.history ∧
      (ReachedBy lib s s' ∨ s'.io.steps + more.countP Action.isIo ≤ s.io.steps) by
    obtain ⟨hinv, hhist, hreached | hleft⟩ := hleft
    · exact hreached
    · exact hinv.reachedBy lib (by omega) hhist
  clear hsteps
  induction hmore with
  | nil => exact ⟨h, List.Subset.refl _, .inr (by simp)⟩
  | @snoc as s₁ s₂ a prior meets next ih =>
    obtain ⟨hinv, hhist, hbefore⟩ := ih
    have heff := effect_of_step lib next
    obtain ⟨os, hos⟩ := history_grows lib heff
    refine ⟨hinv.step lib meets heff, ?_, ?_⟩
    · exact List.Subset.trans hhist (hos ▸ List.subset_append_right os s₁.history)
    · rcases hbefore with hreached | hleft
      · exact .inl (hreached.later lib heff)
      · rcases steps_left lib heff with hzero | hfewer
        · exact .inl ((hinv.reachedBy lib hzero hhist).later lib heff)
        · right
          rw [List.countP_append, List.countP_singleton]
          omega

/-- The thread is never stuck in a message. -/
lemma ioStep_isSome {s : System} (h : s.io ≠ .idle) : ∃ s', step lib s .io = some s' := by
  show ∃ s', s.ioStep lib = some s'
  unfold System.ioStep
  cases hio : s.io with
  | idle => exact absurd hio h
  | orders entries =>
    cases entries with
    | nil => exact ⟨_, rfl⟩
    | cons entry rest =>
      dsimp only
      split <;> exact ⟨_, rfl⟩
  | fills entries =>
    cases entries with
    | nil => exact ⟨_, rfl⟩
    | cons entry rest =>
      dsimp only
      split_ifs
      · split <;> exact ⟨_, rfl⟩
      · exact ⟨_, rfl⟩
  | _ => exact ⟨_, rfl⟩

/-- In runs that take every own fill up before its order has ended, and in which no unreadable
entry precedes an own fill in its message, every own fill reaches the callback: all have whenever
the stream's thread is idle, it can always go on until then, and the fills that have arrived are
handed out by the steps left in its message, whatever other steps are taken in between. -/
theorem fills_reach {lib : Library} {orderUpdateCB fillCB quoteCB : Bool}
    {as : List Action} {s : System}
    (h : Run (step lib) (TakesFillsUp lib) (initial orderUpdateCB fillCB quoteCB) as s) :
    (s.io = .idle → FillsReach lib s) ∧
    (s.io ≠ .idle → ∃ s', step lib s .io = some s') ∧
    ∀ more s', Run (step lib) (TakesFillsUp lib) s more s' →
      s.io.steps ≤ more.countP Action.isIo → ReachedBy lib s s' := by
  have hinv : FillInv lib s := by
    apply Run.invariant (fillInv_initial lib orderUpdateCB fillCB quoteCB) _ h
    intro s a s' hs hok hstep
    exact hs.step lib hok (effect_of_step lib hstep)
  refine ⟨?_, ioStep_isSome lib, fun more s' hmore hsteps => hinv.reached lib hmore hsteps⟩
  intro hidle
  exact hinv.reachedBy lib (by rw [hidle]; rfl) (List.Subset.refl _)

end

lemma ownFill_wellFormed : WellFormed noNumbers (ownFill 8) := by
  constructor <;> refine ⟨rfl, ?_⟩ <;> rintro member ⟨⟩ <;> rfl

/-- The fill arrives while the order is open, and another thread goes on before it is handed out. -/
theorem fills_reach_open_order : ∃ s s',
    Run (step noNumbers) (TakesFillsUp noNumbers) (initial true true true)
      (oneSubmit ++ ([.receive fillMessage] : List Action)) s ∧
    Run (step noNumbers) (TakesFillsUp noNumbers) s [.io, .draw 1 1000 "b" "BTC" 1, .io] s' ∧
    Handed noNumbers s' ownCloid (ownFill 8) ∧
    s'.gateway.delivered = [.fill ⟨"a", "BTC", "8", 0, 0, false⟩] := by
  have hdraw : Run (step noNumbers) (TakesFillsUp noNumbers) (initial true true true)
      [.draw 0 1000 "a" "BTC" 1] _ := Run.snoc .nil trivial rfl
  have hregister := Run.snoc (a := Action.register 0) hdraw trivial rfl
  have hplaced := Run.snoc (a := Action.placed 0 ⟨.resting, ""⟩) hregister trivial rfl
  have hreceive := Run.snoc (a := Action.receive fillMessage) hplaced trivial rfl
  have hstart {as : List Action} {s : System} (_ : Run (step noNumbers) (TakesFillsUp noNumbers)
      (initial true true true) as s) : Run (step noNumbers) (TakesFillsUp noNumbers) s [] s := .nil
  have htake := Run.snoc (a := Action.io) (hstart hreceive) ⟨by
    intro k _ _ hended
    rcases hended with _ | ⟨_, _ | ⟨_, _ | _⟩⟩, .inr (by simp)⟩ rfl
  have hother := Run.snoc (a := Action.draw 1 1000 "b" "BTC" 1) htake trivial rfl
  have hmore := Run.snoc (a := Action.io) hother trivial rfl
  have hreach := (fills_reach hreceive).2.2 _ _ hmore (by decide)
  refine ⟨_, _, hreceive, hmore, ?_, rfl⟩
  apply hreach rfl ownCloid (ownFill 8) (.head _) _ ownFill_wellFormed
  rintro (_ | ⟨_, _ | ⟨_, _ | _⟩⟩)

/-- The fill arrives after the update that reports the order filled, and is dropped. -/
theorem fill_lost_after_filled_update : ∃ s, Run (step noNumbers) anyStep
    (initial true true true) (oneSubmit ++ ([.receive filledMessage, .io, .io, .io, .io,
      .receive fillMessage, .io, .io] : List Action)) s ∧
    s.io = .idle ∧ ¬ FillsReach noNumbers s := by
  refine ⟨_, run_of_execute rfl, rfl, ?_⟩
  intro hreach
  have hhanded := hreach rfl ownCloid (ownFill 8) (.head _) (by
    rintro (_ | ⟨_, _ | ⟨_, _ | ⟨_, _ | ⟨_, _ | _⟩⟩⟩⟩)) ownFill_wellFormed
  obtain ⟨_, _, _, _, _ | ⟨_, _ | _⟩⟩ := hhanded

end HyperliquidApi.GatewayRuns
