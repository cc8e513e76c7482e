import HyperliquidApi.GatewayEffects

/-!
# Attribution of live events

Every submit draws its own id before it registers the order under it, and the stream finds an
event's client order by that id. Runs are watched: the ids drawn are noted with the orders they
are for, and what the stream delivers is noted with the entry that it was read from.
-/
namespace HyperliquidApi.GatewayRuns
open Runs FixedHex OrderMaps

/-- The ids drawn, the most recent first, the entry that the stream's thread took up last, and
what the stream has delivered for which entry. -/
structure Trail where
  drawn : List (String × OrderRec)
  entry : Json
  delivered : List (Json × Event)

def Trail.start : Trail := ⟨[], .null, []⟩

/-- What a step has added to the delivered events. -/
def news (s s' : System) : List Event := s'.gateway.delivered.drop s.gateway.delivered.length

def takenUp : Io → Json → Json
  | .orders (entry :: _), _ => entry
  | .fills (entry :: _), _ => entry
  | _, last => last

/-- The stream's thread takes the two kinds of steps `receive` and `io`; the re-emission of fills
from the REST interface is a calling thread's. -/
def Trail.note (n : Trail) (s : System) (a : Action) (s' : System) : Trail :=
  match a with
  | .draw _ ms clientOrderId symbol origSz =>
    { n with
      drawn := (formatCloid ms s.gateway.orders.cloidCounter, ⟨clientOrderId, symbol, origSz⟩) ::
        n.drawn }
  | .receive json => { n with delivered := n.delivered ++ (news s s').map fun e => (json, e) }
  | .io =>
    let entry := takenUp s.io n.entry
    { n with entry, delivered := n.delivered ++ (news s s').map fun e => (entry, e) }
  | _ => n

/-- `0x` and 32 lower-case hexadecimal digits. -/
def IsCloid (k : String) : Prop :=
  ∃ digits : List Char, k = String.ofList ('0' :: 'x' :: digits) ∧ digits.length = 32 ∧
    ∀ c ∈ digits, IsLowerHex c

/-- The submit that drew the id is for this client order and symbol. -/
def DrawnFor (drawn : List (String × OrderRec)) (id : Option String)
    (clientOrderId symbol : String) : Prop :=
  ∃ k rec, id = some k ∧ (k, rec) ∈ drawn ∧ clientOrderId = rec.clientOrderId ∧ symbol = rec.symbol

/-- An event carries the ids of the submit that drew the id its entry names. -/
def Attributed (drawn : List (String × OrderRec)) (entry : Json) : Event → Prop
  | .orderUpdate update => DrawnFor drawn (orderCloid entry) update.clientOrderId update.symbol
  | .fill fill => DrawnFor drawn (fillCloid entry) fill.clientOrderId fill.symbol
  | .quote _ _ => True

/-- The entry names no id that was drawn. -/
def Foreign (drawn : List (String × OrderRec)) (entry : Json) : Prop :=
  ∀ k ∈ drawn.map Prod.fst, orderCloid entry ≠ some k ∧ fillCloid entry ≠ some k

structure AttributionKept (s : System) (n : Trail) : Prop where
  distinct : (n.drawn.map Prod.fst).Nodup
  shape : ∀ k ∈ n.drawn.map Prod.fst, IsCloid k
  unclobbered : ∀ t k rec, s.calls t = .naming k rec → s.gateway.orders.byCloid k = none
  attributed : ∀ entry event, (entry, event) ∈ n.delivered → Attributed n.drawn entry event
  foreign : ∀ entry event, (entry, event) ∈ n.delivered → Foreign n.drawn entry →
    ∃ coin quote, event = .quote coin quote

/-- The ids carry the counters from 1 up. -/
def Counted : List (String × OrderRec) → Prop
  | [] => True
  | (k, _) :: earlier => (∃ ms, k = formatCloid ms (earlier.length + 1)) ∧ Counted earlier

lemma Counted.counter {drawn : List (String × OrderRec)} (h : Counted drawn) :
    ∀ k ∈ drawn.map Prod.fst, ∃ ms c, k = formatCloid ms c ∧ c ≤ drawn.length := by
  induction drawn with
  | nil => simp
  | cons d earlier ih =>
    obtain ⟨⟨ms, hd⟩, hearlier⟩ := h
    intro k hk
    rcases List.mem_cons.mp hk with rfl | hk
    · exact ⟨ms, _, hd, le_rfl⟩
    · obtain ⟨ms', c, hc, hle⟩ := ih hearlier k hk
      exact ⟨ms', c, hc, hle.trans (Nat.le_succ _)⟩

/-- The next id is none of the earlier ones. -/
lemma Counted.fresh {drawn : List (String × OrderRec)} (h : Counted drawn)
    (hfew : drawn.length + 1 < 2^64) (ms : ℕ) :
    formatCloid ms (drawn.length + 1) ∉ drawn.map Prod.fst := by
  intro hmem
  obtain ⟨ms', c, hc, hle⟩ := h.counter _ hmem
  have heq := counter_eq_of_formatCloid_eq hfew (by omega) hc
  omega

lemma Counted.nodup {drawn : List (String × OrderRec)} (h : Counted drawn)
    (hfew : drawn.length < 2^64) : (drawn.map Prod.fst).Nodup := by
  induction drawn with
  | nil => simp
  | cons d earlier ih =>
    obtain ⟨⟨ms, hd⟩, hearlier⟩ := h
    have hfresh := hearlier.fresh hfew ms
    rw [← hd] at hfresh
    exact List.nodup_cons.mpr ⟨hfresh, ih hearlier (Nat.lt_of_succ_lt hfew)⟩

lemma formatCloid_isCloid (ms counter : ℕ) : IsCloid (formatCloid ms counter) := by
  refine ⟨fixedHex 16 ms ++ fixedHex 16 counter, rfl, ?_, ?_⟩
  · simp [fixedHex_length]
  · intro c hc
    rcases List.mem_append.mp hc with h | h
    · exact fixedHex_lowerHex 16 ms c h
    · exact fixedHex_lowerHex 16 counter c h

lemma DrawnFor.mono {drawn drawn' : List (String × OrderRec)} {id : Option String}
    {clientOrderId symbol : String} (h : DrawnFor drawn id clientOrderId symbol)
    (hsub : drawn ⊆ drawn') : DrawnFor drawn' id clientOrderId symbol := by
  obtain ⟨k, rec, hk, hmem, hids⟩ := h
  exact ⟨k, rec, hk, hsub hmem, hids⟩

lemma Attributed.mono {drawn drawn' : List (String × OrderRec)} {entry : Json} {event : Event}
    (h : Attributed drawn entry event) (hsub : drawn ⊆ drawn') : Attributed drawn' entry event := by
  cases event with
  | orderUpdate update => exact DrawnFor.mono h hsub
  | fill fill => exact DrawnFor.mono h hsub
  | quote coin quote => trivial

/-- An entry that names no drawn id has no order or fill event. -/
lemma Attributed.quote_of_foreign {drawn : List (String × OrderRec)} {entry : Json} {event : Event}
    (h : Attributed drawn entry event) (hforeign : Foreign drawn entry) :
    ∃ coin quote, event = .quote coin quote := by
  cases event with
  | orderUpdate update =>
    obtain ⟨k, rec, hk, hmem, _⟩ := h
    exact absurd hk (hforeign k (List.mem_map_of_mem hmem)).1
  | fill fill =>
    obtain ⟨k, rec, hk, hmem, _⟩ := h
    exact absurd hk (hforeign k (List.mem_map_of_mem hmem)).2
  | quote coin quote => exact ⟨coin, quote, rfl⟩

/-- Over the parts of a system that attribution depends on. -/
structure TrailInv (m : OrderMaps) (io : Io) (calls : ℕ → Call) (history : List Observation)
    (n : Trail) : Prop where
  counter : m.cloidCounter = (n.drawn.length + 1) % 2^64
  counted : Counted n.drawn
  known : ∀ k rec, m.byCloid k = some rec → .registered k rec ∈ history
  drawn : ∀ k rec, .registered k rec ∈ history → (k, rec) ∈ n.drawn
  naming : ∀ t k rec, calls t = .naming k rec →
    (k, rec) ∈ n.drawn ∧ ∀ rec', .registered k rec' ∉ history
  alone : ∀ t t' k rec rec', calls t = .naming k rec → calls t' = .naming k rec' → t = t'
  reporting : ∀ report rest, io = .report report rest →
    Attributed n.drawn n.entry (.orderUpdate report.update)
  handing : ∀ fill rest, io = .hand fill rest → Attributed n.drawn n.entry (.fill fill)
  delivered : ∀ entry event, (entry, event) ∈ n.delivered → Attributed n.drawn entry event

namespace TrailInv
variable {m : OrderMaps} {io : Io} {calls : ℕ → Call} {history : List Observation} {n : Trail}

lemma unregistered (h : TrailInv m io calls history n) {t : ℕ} {k : String} {rec : OrderRec}
    (hcall : calls t = .naming k rec) : m.byCloid k = none := by
  by_contra hreg
  obtain ⟨rec', hrec⟩ := Option.ne_none_iff_exists'.mp hreg
  exact (h.naming t k rec hcall).2 rec' (h.known k rec' hrec)

lemma kept {s : System} (h : TrailInv s.gateway.orders s.io s.calls s.history n)
    (hfew : n.drawn.length < 2^64) : AttributionKept s n where
  distinct := h.counted.nodup hfew
  shape k hk := by
    obtain ⟨ms, c, rfl, _⟩ := h.counted.counter k hk
    exact formatCloid_isCloid ms c
  unclobbered t k rec hcall := h.unregistered hcall
  attributed := h.delivered
  foreign entry event hmem := (h.delivered entry event hmem).quote_of_foreign

lemma setCall (h : TrailInv m io calls history n) (t : ℕ) {call : Call}
    (hcall : ∀ k rec, call ≠ .naming k rec) :
    TrailInv m io (Function.update calls t call) history n := by
  have hother : ∀ t' k rec, Function.update calls t call t' = .naming k rec →
      calls t' = .naming k rec := by
    intro t' k rec hnaming
    by_cases ht : t' = t
    · rw [ht, Function.update_self] at hnaming
      exact absurd hnaming (hcall k rec)
    · rwa [Function.update_of_ne ht] at hnaming
  exact
    { h with
      naming := fun t' k rec hnaming => h.naming t' k rec (hother t' k rec hnaming)
      alone := fun t₁ t₂ k rec rec' h₁ h₂ =>
        h.alone t₁ t₂ k rec rec' (hother t₁ k rec h₁) (hother t₂ k rec' h₂) }

/-- Observations other than registrations. -/
lemma observe (h : TrailInv m io calls history n) (os : List Observation)
    (hos : ∀ k rec, .registered k rec ∉ os) : TrailInv m io calls (os ++ history) n := by
  have hold : ∀ k rec, .registered k rec ∈ os ++ history → .registered k rec ∈ history := by
    intro k rec hmem
    exact (List.mem_append.mp hmem).resolve_left (hos k rec)
  exact
    { h with
      known := fun k rec hrec => List.mem_append_right os (h.known k rec hrec)
      drawn := fun k rec hmem => h.drawn k rec (hold k rec hmem)
      naming := fun t k rec hcall => by
        obtain ⟨hmem, hnone⟩ := h.naming t k rec hcall
        exact ⟨hmem, fun rec' hreg => hnone rec' (hold k rec' hreg)⟩ }

lemma prune (h : TrailInv m io calls history n) (k : String) :
    TrailInv (m.pruneCloid k) io calls history n := by
  refine { h with counter := ?_, known := ?_ }
  · rw [pruneCloid_cloidCounter]
    exact h.counter
  · intro k' rec hrec
    exact h.known k' rec (pruneCloid_eq_some.mp hrec).2

/-- The id drawn is new, so it is registered nowhere and no other thread holds it. -/
lemma draw (h : TrailInv m io calls history n) (t ms : ℕ) (rec : OrderRec)
    (hfew : n.drawn.length + 1 < 2^64) :
    TrailInv m.fetchAdd io
      (Function.update calls t (.naming (formatCloid ms m.cloidCounter) rec)) history
      { n with drawn := (formatCloid ms m.cloidCounter, rec) :: n.drawn } := by
  have hcounter : m.cloidCounter = n.drawn.length + 1 := by
    rw [h.counter, Nat.mod_eq_of_lt hfew]
  have hfresh : formatCloid ms m.cloidCounter ∉ n.drawn.map Prod.fst := by
    rw [hcounter]
    exact h.counted.fresh hfew ms
  have hnew : ∀ k rec', (k, rec') ∈ n.drawn → k ≠ formatCloid ms m.cloidCounter := by
    intro k rec' hmem hk
    have hkey := List.mem_map_of_mem (f := Prod.fst) hmem
    rw [hk] at hkey
    exact hfresh hkey
  have hsub : n.drawn ⊆ (formatCloid ms m.cloidCounter, rec) :: n.drawn := List.subset_cons_self _ _
  constructor
  · simp [fetchAdd, hcounter]
  · exact ⟨⟨ms, by rw [hcounter]⟩, h.counted⟩
  · exact h.known
  · exact fun k rec' hreg => hsub (h.drawn k rec' hreg)
  · intro t' k rec' hnaming
    by_cases ht : t' = t
    · rw [ht, Function.update_self] at hnaming
      obtain ⟨rfl, rfl⟩ := Call.naming.inj hnaming
      exact ⟨by simp, fun rec'' hreg => hnew _ rec'' (h.drawn _ rec'' hreg) rfl⟩
    · rw [Function.update_of_ne ht] at hnaming
      obtain ⟨hmem, hnone⟩ := h.naming t' k rec' hnaming
      exact ⟨hsub hmem, hnone⟩
  · intro t₁ t₂ k rec₁ rec₂ h₁ h₂
    by_cases ht₁ : t₁ = t <;> by_cases ht₂ : t₂ = t
    · rw [ht₁, ht₂]
    · rw [ht₁, Function.update_self] at h₁
      rw [Function.update_of_ne ht₂] at h₂
      exact absurd (Call.naming.inj h₁).1.symm (hnew k rec₂ (h.naming t₂ k rec₂ h₂).1)
    · rw [Function.update_of_ne ht₁] at h₁
      rw [ht₂, Function.update_self] at h₂
      exact absurd (Call.naming.inj h₂).1.symm (hnew k rec₁ (h.naming t₁ k rec₁ h₁).1)
    · rw [Function.update_of_ne ht₁] at h₁
      rw [Function.update_of_ne ht₂] at h₂
      exact h.alone t₁ t₂ k rec₁ rec₂ h₁ h₂
  · exact fun report rest hio => (h.reporting report rest hio).mono hsub
  · exact fun fill rest hio => (h.handing fill rest hio).mono hsub
  · exact fun entry event hmem => (h.delivered entry event hmem).mono hsub

/-- The registering thread is the only one that holds the id. -/
lemma register (h : TrailInv m io calls history n) {t : ℕ} {k : String} {rec : OrderRec}
    (hcall : calls t = .naming k rec) :
    TrailInv (m.register k rec) io (Function.update calls t (.placing k))
      (.registered k rec :: history) n := by
  have hmoved : TrailInv m io (Function.update calls t (.placing k)) history n := by
    exact h.setCall t (by simp)
  refine { hmoved with counter := h.counter, known := ?_, drawn := ?_, naming := ?_ }
  · intro k' rec' hrec
    by_cases hk : k' = k
    · subst hk
      obtain rfl : rec = rec' := by simpa using hrec
      exact .head _
    · exact .tail _ (h.known k' rec' (by simpa [hk] using hrec))
  · intro k' rec' hreg
    rcases List.mem_cons.mp hreg with heq | hold
    · obtain ⟨rfl, rfl⟩ := Observation.registered.inj heq
      exact (h.naming t k' rec' hcall).1
    · exact h.drawn k' rec' hold
  · intro t' k' rec' hnaming
    obtain ⟨hmem', hnone⟩ := hmoved.naming t' k' rec' hnaming
    refine ⟨hmem', ?_⟩
    intro rec'' hreg
    rcases List.mem_cons.mp hreg with heq | hold
    · obtain ⟨rfl, rfl⟩ := Observation.registered.inj heq
      have ht : t' ≠ t := by
        rintro rfl
        rw [Function.update_self] at hnaming
        cases hnaming
      rw [Function.update_of_ne ht] at hnaming
      exact ht (h.alone t' t k' rec' rec'' hnaming hcall)
    · exact hnone rec'' hold

/-- What the stream's thread reads is attributed before it is delivered. -/
lemma setIo (h : TrailInv m io calls history n) {io' : Io} {entry : Json} {es : List (Json × Event)}
    (hreport : ∀ report rest, io' = .report report rest →
      Attributed n.drawn entry (.orderUpdate report.update))
    (hhand : ∀ fill rest, io' = .hand fill rest → Attributed n.drawn entry (.fill fill))
    (hes : ∀ e ∈ es, Attributed n.drawn e.1 e.2) :
    TrailInv m io' calls history { n with entry, delivered := n.delivered ++ es } :=
  { h with
    reporting := hreport
    handing := hhand
    delivered := by
      intro entry event hmem
      rcases List.mem_append.mp hmem with hold | hnew
      · exact h.delivered entry event hold
      · exact hes _ hnew }

end TrailInv

section
variable (lib : Library)

@[simp] lemma news_same {s s' : System} (h : s'.gateway.delivered = s.gateway.delivered) :
    news s s' = [] := by simp [news, h]

lemma news_append {s s' : System} {es : List Event}
    (h : s'.gateway.delivered = s.gateway.delivered ++ es) : news s s' = es := by
  simp [news, h]

lemma news_reportUpdate {s s' : System} {update : OrderUpdate}
    (h : s'.gateway.delivered = (s.gateway.reportUpdate update).delivered) :
    ∀ e ∈ news s s', e = .orderUpdate update := by
  unfold Gateway.reportUpdate at h
  split at h
  · rw [news_append h]
    simp
  · rw [news_same h]
    simp

lemma news_onBbo {s s' : System} {coin : String} {quote : Quote}
    (h : s'.gateway.delivered = (s.gateway.onBbo coin quote).delivered) :
    ∀ e ∈ news s s', e = .quote coin quote := by
  dsimp only [Gateway.onBbo] at h
  split at h
  · rw [news_append h]
    simp
  · rw [news_same h]
    simp

namespace TrailInv
variable {s s' : System} {n : Trail}

/-- Moving on in a message without delivering anything. -/
lemma moveOn (h : TrailInv s.gateway.orders s.io s.calls s.history n) {io : Io}
    (hreport : ∀ report rest, io = .report report rest →
      Attributed n.drawn (takenUp s.io n.entry) (.orderUpdate report.update))
    (hhand : ∀ fill rest, io = .hand fill rest →
      Attributed n.drawn (takenUp s.io n.entry) (.fill fill)) :
    TrailInv s.gateway.orders io s.calls s.history (n.note s .io { s with io }) := by
  exact h.setIo hreport hhand (by simp)

lemma io (h : TrailInv s.gateway.orders s.io s.calls s.history n) (heff : IoEffect lib s s') :
    TrailInv s'.gateway.orders s'.io s'.calls s'.history (n.note s .io s') := by
  cases heff with
  | ordersDone hio => exact h.moveOn (by simp) (by simp)
  | orderUnreadable hio hread => exact h.moveOn (by simp) (by simp)
  | orderIgnored hio hread => exact h.moveOn (by simp) (by simp)
  | @orderRead entry rest report hio hread =>
    obtain ⟨_, rec, hrec, hclient, hsymbol, hnamed, _⟩ := readOrderUpdate_some lib hread
    have hown : Attributed n.drawn entry (.orderUpdate report.update) :=
      ⟨report.cloid, rec, hnamed, h.drawn _ _ (h.known _ _ hrec), hclient, hsymbol⟩
    apply h.moveOn _ (by simp)
    rintro report' rest' heq
    obtain ⟨rfl, rfl⟩ := Io.report.inj heq
    simpa [takenUp, hio] using hown
  | @reported report rest hio =>
    have hown := h.reporting report rest hio
    have htaken : takenUp s.io n.entry = n.entry := by simp [takenUp, hio]
    have hseen := h.observe [.reported report.cloid report.update] (by simp)
    show TrailInv (s.gateway.reportUpdate report.update).orders _ _ _ _
    rw [Gateway.reportUpdate_orders]
    apply hseen.setIo
    · intro report' rest' heq
      cases hterminal : report.terminal <;> simp [hterminal] at heq
    · intro fill rest' heq
      cases hterminal : report.terminal <;> simp [hterminal] at heq
    · intro e he
      obtain ⟨event, hevent, rfl⟩ := List.mem_map.mp he
      obtain rfl := news_reportUpdate rfl event hevent
      rw [htaken]
      exact hown
  | @pruned cloid rest hio =>
    have hquiet : news s
        { s with
          gateway := s.gateway.pruneCloid cloid
          io := .orders rest
          history := .ended cloid :: s.history } = [] := news_same rfl
    have hseen := (h.prune cloid).observe [.ended cloid] (by simp)
    exact hseen.setIo (by simp) (by simp) (by simp [hquiet])
  | fillsDone hio => exact h.moveOn (by simp) (by simp)
  | fillUnheard hio hcb => exact h.moveOn (by simp) (by simp)
  | fillUnreadable hio hcb hread => exact h.moveOn (by simp) (by simp)
  | fillIgnored hio hcb hread => exact h.moveOn (by simp) (by simp)
  | @fillRead entry rest fill hio hcb hread =>
    obtain ⟨k, rec, hk, _, hrec, hfill⟩ := readFill_some lib hread
    obtain ⟨hclient, hsymbol⟩ := fillEvent_ids lib hfill
    have hown : Attributed n.drawn entry (.fill fill) :=
      ⟨k, rec, by simp [fillCloid, hk], h.drawn _ _ (h.known _ _ hrec), hclient, hsymbol⟩
    apply h.moveOn (by simp)
    rintro fill' rest' heq
    obtain ⟨rfl, rfl⟩ := Io.hand.inj heq
    simpa [takenUp, hio] using hown
  | @handed fill rest hio =>
    have hown := h.handing fill rest hio
    have htaken : takenUp s.io n.entry = n.entry := by simp [takenUp, hio]
    apply h.setIo (by simp) (by simp)
    intro e he
    obtain ⟨event, hevent, rfl⟩ := List.mem_map.mp he
    have hnews : news s { s with gateway := s.gateway.deliver (.fill fill), io := .fills rest } =
        [.fill fill] := news_append rfl
    rw [hnews] at hevent
    obtain rfl := List.mem_singleton.mp hevent
    rw [htaken]
    exact hown

/-- A message as it arrives delivers quotes only. -/
lemma receive (h : TrailInv s.gateway.orders s.io s.calls s.history n) (json : Json) :
    TrailInv (s.receive lib json).gateway.orders (s.receive lib json).io
      (s.receive lib json).calls (s.receive lib json).history
      (n.note s (.receive json) (s.receive lib json)) := by
  unfold System.receive
  cases workOf lib json with
  | none => exact h.setIo h.reporting h.handing (by simp)
  | quote coin quote =>
    show TrailInv (s.gateway.onBbo coin quote).orders _ _ _ _
    rw [Gateway.onBbo_orders]
    apply h.setIo h.reporting h.handing
    intro e he
    obtain ⟨event, hevent, rfl⟩ := List.mem_map.mp he
    obtain rfl := news_onBbo rfl event hevent
    trivial
  | orders entries => exact h.setIo (by simp) (by simp) (by simp)
  | fills entries =>
    have hseen := h.observe (s.arrivals entries) (fun k rec hmem => by
      obtain ⟨k', entry, heq, _⟩ := mem_arrivals hmem
      cases heq)
    exact hseen.setIo (by simp) (by simp) (by simp)

lemma step {a : Action} (h : TrailInv s.gateway.orders s.io s.calls s.history n)
    (hfew : (n.note s a s').drawn.length < 2^64) (hs : step lib s a = some s') :
    TrailInv s'.gateway.orders s'.io s'.calls s'.history (n.note s a s') := by
  cases effect_of_step lib hs with
  | @drawn t ms clientOrderId symbol origSz hcall => exact h.draw t ms _ hfew
  | registered hcall => exact h.register hcall
  | @rejected t status cloid hcall hkind =>
    exact (h.setCall t (by simp)).observe [.rejected cloid] (by simp)
  | accepted hcall hkind => exact h.setCall _ (by simp)
  | @refused t cloid reason hcall =>
    exact ((h.prune cloid).setCall t (by simp)).observe
      [.threw cloid ⟨classifyReject reason, reason⟩] (by simp)
  | cancelUnknown hcall => exact h
  | cancelSent hcall hfound => exact h.setCall _ (by simp)
  | cancelGone hcall hgone => exact h.setCall _ (by simp)
  | cancelAnswered hcall => exact h.setCall _ (by simp)
  | reconciling hcall hcb hfound => exact h.setCall _ (by simp)
  | @unreconciled t clientOrderId symbol cloid hcall hskip =>
    exact (h.setCall t (by simp)).observe [.returned clientOrderId cloid s.venueFills]
      (by simp)
  | fetched hcall => exact h.setCall _ (by simp)
  | @reemitted t clientOrderId symbol cloid found reply hcall =>
    exact (h.setCall t (by simp)).observe [.returned clientOrderId cloid reply] (by simp)
  | skipped hcall hskip => exact h.setCall _ (by simp)
  | reemits hcall hfound htid => exact h.setCall _ (by simp)
  | failed hcall => exact h.setCall _ (by simp)
  | traded => exact h
  | received hio => exact h.receive lib _
  | io heff => exact h.io lib heff

end TrailInv

lemma drawn_length_le (n : Trail) (s : System) (a : Action) (s' : System) :
    n.drawn.length ≤ (n.note s a s').drawn.length := by
  cases a <;> simp [Trail.note]

lemma trailInv_of_run {orderUpdateCB fillCB quoteCB : Bool} {as : List Action}
    {w : System × Trail}
    (h : Run (watched (step lib) Trail.note) anyStep
      (initial orderUpdateCB fillCB quoteCB, Trail.start) as w) (hfew : w.2.drawn.length < 2^64) :
    TrailInv w.1.gateway.orders w.1.io w.1.calls w.1.history w.2 := by
  revert hfew
  apply Run.invariant (P := fun w => w.2.drawn.length < 2^64 →
    TrailInv w.1.gateway.orders w.1.io w.1.calls w.1.history w.2) _ _ h
  · intro _
    constructor <;> simp [initial, Trail.start, OrderMaps.empty, Counted]
  · rintro ⟨s, n⟩ a ⟨s', n'⟩ ih _ hstep hfew'
    obtain ⟨hs, hn'⟩ := watched_eq_some hstep
    dsimp only at hs hn' hfew'
    subst hn'
    exact (ih ((drawn_length_le n s a s').trans_lt hfew')).step lib hfew' hs

/-- With fewer than 2^64 ids drawn, in any interleaving of submits, messages and clock readings,
ids are distinct, records are not overwritten and every event of the stream belongs to the
submit that drew the id its entry names. -/
theorem events_attributed (orderUpdateCB fillCB quoteCB : Bool) {as : List Action} {s : System}
    {n : Trail}
    (h : Run (watched (step lib) Trail.note) anyStep
      (initial orderUpdateCB fillCB quoteCB, Trail.start) as (s, n))
    (hfew : n.drawn.length < 2^64) : AttributionKept s n :=
  (trailInv_of_run lib h hfew).kept hfew

end

/-- Two submits in the same millisecond, registered in the other order, and the first one's
order fills. -/
theorem events_attributed_same_millisecond : ∃ s n,
    Run (watched (step noNumbers) Trail.note) anyStep (initial true true true, Trail.start)
      [.draw 0 1000 "a" "BTC" 1, .draw 1 1000 "b" "ETH" 2, .register 1, .register 0,
        .receive filledMessage, .io, .io] (s, n) ∧
    (∃ entry update, n.delivered = [(entry, .orderUpdate update)] ∧ update.clientOrderId = "a") ∧
    AttributionKept s n := by
  obtain ⟨s, n, hrun, hdelivered, hfew⟩ : ∃ s n,
      Run (watched (step noNumbers) Trail.note) anyStep (initial true true true, Trail.start)
        [.draw 0 1000 "a" "BTC" 1, .draw 1 1000 "b" "ETH" 2, .register 1, .register 0,
          .receive filledMessage, .io, .io] (s, n) ∧
      (∃ entry update, n.delivered = [(entry, .orderUpdate update)] ∧
        update.clientOrderId = "a") ∧ n.drawn.length = 2 :=
    ⟨_, _, run_of_execute rfl, ⟨_, _, rfl, rfl⟩, rfl⟩
  exact ⟨s, n, hrun, hdelivered, events_attributed _ true true true hrun (by rw [hfew]; decide)⟩

end HyperliquidApi.GatewayRuns
