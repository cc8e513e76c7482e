import HyperliquidApi.Attribution

/-!
# What the stream tells

The entries of the messages are handled one after the other, and an entry that throws ends its
message. So what the callbacks are told follows the entries as they arrived, tells each at most
once, and says of each what it says itself.
-/
namespace HyperliquidApi.GatewayRuns
open Runs

section
variable (lib : Library)

/-- The entries of a message that are handled one by one; a quote is one entry. -/
def entriesOf (json : Json) : List Json :=
  match workOf lib json with
  | .none => []
  | .quote _ _ => [json]
  | .orders entries => entries
  | .fills entries => entries

/-- The entries that have arrived, the one taken up last, and what has been told for which. -/
structure Feed where
  received : List Json
  entry : Json
  told : List (Json × Event)

def Feed.start : Feed := ⟨[], .null, []⟩

/-- The stream's thread takes the steps `receive` and `io`. -/
def Feed.note (n : Feed) (s : System) (a : Action) (s' : System) : Feed :=
  match a with
  | .receive json =>
    { n with
      received := n.received ++ entriesOf lib json
      told := n.told ++ (news s s').map fun e => (json, e) }
  | .io =>
    let entry := takenUp s.io n.entry
    { n with entry, told := n.told ++ (news s s').map fun e => (entry, e) }
  | _ => n

/-- The entries that may still be told, the one taken up first. -/
def Io.left (entry : Json) : Io → List Json
  | .idle => []
  | .orders rest => rest
  | .report _ rest => entry :: rest
  | .prune _ rest => rest
  | .fills rest => rest
  | .hand _ rest => entry :: rest

/-- The update reports the entry's price, fills and status. -/
def ReportsUpdate (entry : Json) (update : OrderUpdate) : Prop :=
  ∃ order terminal, entry.find "order" = some order ∧
    entry.value Json.asString "status" "" = .ok update.reason ∧
    orderStateOf update.reason = some (update.state, terminal) ∧
    update.price = order.readNum lib.stod "limitPx" ∧
    update.cumFilledQty = max 0 (order.readNum lib.stod "origSz" - order.readNum lib.stod "sz") ∧
    (update.rejectKind = some .hard ↔ update.state = .rejected)

/-- The fill reports the entry's trade id, size, price and side of the book. -/
def ReportsFill (entry : Json) (fill : FillEvent) : Prop :=
  ∃ tid crossed, entry.value lib.asULL "tid" 0 = .ok tid ∧
    entry.value Json.asBool "crossed" false = .ok crossed ∧ fill.fillId = toString tid ∧
    fill.qty = entry.readNum lib.stod "sz" ∧ fill.price = entry.readNum lib.stod "px" ∧
    fill.isMaker = !crossed

def Faithful (entry : Json) : Event → Prop
  | .orderUpdate update => ReportsUpdate lib entry update
  | .fill fill => ReportsFill lib entry fill
  | .quote coin quote => ∃ data, entry.find "data" = some data ∧ readBbo lib data = .ok (coin, quote)

lemma readOrderUpdate_faithful {m : OrderMaps} {entry : Json} {report : OrderReport}
    (h : readOrderUpdate lib m entry = .ok (some report)) : ReportsUpdate lib entry report.update := by
  unfold readOrderUpdate at h
  split at h
  · cases h
  rename_i order ho
  split at h
  swap
  · cases h
  obtain ⟨k, _, h⟩ := bind_ok h
  by_cases hk : k = ""
  · rw [if_pos hk] at h
    cases h
  rw [if_neg hk] at h
  split at h
  · cases h
  obtain ⟨status, hstatus, h⟩ := bind_ok h
  dsimp only at h
  split at h
  · cases h
  rename_i state terminal hstate
  obtain rfl := Option.some.inj (Except.ok.inj h)
  refine ⟨order, terminal, ho, hstatus, hstate, rfl, rfl, ?_⟩
  by_cases hrejected : state = .rejected <;> simp [hrejected]

lemma readFill_faithful {m : OrderMaps} {entry : Json} {fill : FillEvent}
    (h : readFill lib m entry = .ok (some fill)) : ReportsFill lib entry fill := by
  obtain ⟨_, rec, _, _, _, hevent⟩ := readFill_some lib h
  unfold fillEvent at hevent
  obtain ⟨tid, htid, hevent⟩ := bind_ok hevent
  obtain ⟨crossed, hcrossed, hevent⟩ := bind_ok hevent
  obtain rfl := Except.ok.inj hevent
  exact ⟨tid, crossed, htid, hcrossed, rfl, rfl, rfl, rfl⟩

lemma workOf_quote {json : Json} {coin : String} {quote : Quote}
    (h : workOf lib json = .quote coin quote) :
    ∃ data, json.find "data" = some data ∧ readBbo lib data = .ok (coin, quote) := by
  unfold workOf at h
  split at h
  swap
  · cases h
  rename_i channel data _ hdata
  split at h
  · split at h
    swap
    · cases h
    split at h
    · cases h
    rename_i coin' quote' hread
    split at h
    · cases h
    obtain ⟨rfl, rfl⟩ := Work.quote.inj h
    exact ⟨data, hdata, hread⟩
  · split at h
    · split at h <;> cases h
    · split at h
      · split at h
        swap
        · cases h
        split at h <;> cases h
      · cases h

lemma news_reportUpdate_cases {s s' : System} {update : OrderUpdate}
    (h : s'.gateway.delivered = (s.gateway.reportUpdate update).delivered) :
    news s s' = [.orderUpdate update] ∨ news s s' = [] := by
  unfold Gateway.reportUpdate at h
  split at h
  · exact .inl (news_append h)
  · exact .inr (news_same h)

lemma news_onBbo_cases {s s' : System} {coin : String} {quote : Quote}
    (h : s'.gateway.delivered = (s.gateway.onBbo coin quote).delivered) :
    news s s' = [.quote coin quote] ∨ news s s' = [] := by
  dsimp only [Gateway.onBbo] at h
  split at h
  · exact .inl (news_append h)
  · exact .inr (news_same h)

/-- What has been told and what is left follows what has arrived. -/
structure FeedInv (io : Io) (n : Feed) : Prop where
  order : (n.told.map Prod.fst ++ io.left n.entry).Sublist n.received
  reporting : ∀ report rest, io = .report report rest → ReportsUpdate lib n.entry report.update
  handing : ∀ fill rest, io = .hand fill rest → ReportsFill lib n.entry fill
  faithful : ∀ entry event, (entry, event) ∈ n.told → Faithful lib entry event

namespace FeedInv
variable {s s' : System} {n : Feed}

/-- Moving on in a message without telling anything. -/
lemma moveOn (h : FeedInv lib s.io n) (hnews : news s s' = [])
    (hleft : (s'.io.left (takenUp s.io n.entry)).Sublist (s.io.left n.entry))
    (hreport : ∀ report rest, s'.io = .report report rest →
      ReportsUpdate lib (takenUp s.io n.entry) report.update)
    (hhand : ∀ fill rest, s'.io = .hand fill rest → ReportsFill lib (takenUp s.io n.entry) fill) :
    FeedInv lib s'.io (n.note lib s .io s') := by
  have hnote : n.note lib s .io s' = { n with entry := takenUp s.io n.entry } := by
    simp [Feed.note, hnews]
  rw [hnote]
  exact ⟨((List.Sublist.refl _).append hleft).trans h.order, hreport, hhand, h.faithful⟩

/-- Telling the entry that was taken up, if anybody listens. -/
lemma tell (h : FeedInv lib s.io n) {event : Event} {rest : List Json}
    (hleft : s.io.left n.entry = n.entry :: rest) (htaken : takenUp s.io n.entry = n.entry)
    (hnews : news s s' = [event] ∨ news s s' = []) (hfaithful : Faithful lib n.entry event)
    (hleft' : s'.io.left n.entry = rest) (hreport : ∀ report rest, s'.io ≠ .report report rest)
    (hhand : ∀ fill rest, s'.io ≠ .hand fill rest) :
    FeedInv lib s'.io (n.note lib s .io s') := by
  have horder := h.order
  rw [hleft] at horder
  have hio : ∀ t : List (Json × Event), (t.map Prod.fst ++ rest).Sublist n.received →
      (∀ entry e, (entry, e) ∈ t → Faithful lib entry e) →
      FeedInv lib s'.io { n with told := t } := by
    intro t ht hall
    refine ⟨?_, fun report rest heq => absurd heq (hreport report rest),
      fun fill rest heq => absurd heq (hhand fill rest), hall⟩
    dsimp only
    rwa [hleft']
  rcases hnews with hone | hnone
  · have hnote : n.note lib s .io s' = { n with told := n.told ++ [(n.entry, event)] } := by
      simp [Feed.note, hone, htaken]
    rw [hnote]
    apply hio
    · simpa using horder
    · intro entry e hmem
      rcases List.mem_append.mp hmem with hold | hnew
      · exact h.faithful entry e hold
      · obtain ⟨rfl, rfl⟩ := Prod.mk.inj (List.mem_singleton.mp hnew)
        exact hfaithful
  · have hnote : n.note lib s .io s' = { n with told := n.told } := by
      simp [Feed.note, hnone, htaken]
    rw [hnote]
    apply hio _ _ h.faithful
    exact (((List.Sublist.refl _).append (List.sublist_cons_self _ _))).trans horder

lemma io (h : FeedInv lib s.io n) (heff : IoEffect lib s s') :
    FeedInv lib s'.io (n.note lib s .io s') := by
  cases heff with
  | ordersDone hio => exact h.moveOn lib (by simp) (by simp [Io.left]) (by simp) (by simp)
  | orderUnreadable hio hread =>
    exact h.moveOn lib (by simp) (by simp [Io.left]) (by simp) (by simp)
  | orderIgnored hio hread =>
    exact h.moveOn lib (by simp) (by simp [Io.left, hio]) (by simp) (by simp)
  | @orderRead entry rest report hio hread =>
    apply h.moveOn lib (by simp) (by simp [Io.left, takenUp, hio]) _ (by simp)
    rintro report' rest' heq
    obtain ⟨rfl, rfl⟩ := Io.report.inj heq
    simpa [takenUp, hio] using readOrderUpdate_faithful lib hread
  | @reported report rest hio =>
    refine @tell lib s _ n h (.orderUpdate report.update) rest ?_ ?_ ?_ ?_ ?_ ?_ ?_
    · simp [Io.left, hio]
    · simp [takenUp, hio]
    · exact news_reportUpdate_cases rfl
    · exact h.reporting report rest hio
    · split <;> rfl
    · intro report' rest' heq
      split at heq <;> cases heq
    · intro fill rest' heq
      split at heq <;> cases heq
  | @pruned cloid rest hio =>
    exact h.moveOn lib (news_same rfl) (by simp [Io.left, hio]) (by simp) (by simp)
  | fillsDone hio => exact h.moveOn lib (by simp) (by simp [Io.left]) (by simp) (by simp)
  | fillUnheard hio hcb =>
    exact h.moveOn lib (by simp) (by simp [Io.left, hio]) (by simp) (by simp)
  | fillUnreadable hio hcb hread =>
    exact h.moveOn lib (by simp) (by simp [Io.left]) (by simp) (by simp)
  | fillIgnored hio hcb hread =>
    exact h.moveOn lib (by simp) (by simp [Io.left, hio]) (by simp) (by simp)
  | @fillRead entry rest fill hio hcb hread =>
    apply h.moveOn lib (by simp) (by simp [Io.left, takenUp, hio]) (by simp)
    rintro fill' rest' heq
    obtain ⟨rfl, rfl⟩ := Io.hand.inj heq
    simpa [takenUp, hio] using readFill_faithful lib hread
  | @handed fill rest hio =>
    refine @tell lib s _ n h (.fill fill) rest ?_ ?_ ?_ ?_ ?_ ?_ ?_
    · simp [Io.left, hio]
    · simp [takenUp, hio]
    · exact .inl (news_append rfl)
    · exact h.handing fill rest hio
    · rfl
    · simp
    · simp

/-- A quote is told as it arrives; the entries of the other messages are taken up later. -/
lemma receive (h : FeedInv lib s.io n) (hidle : s.io = .idle) (json : Json) :
    FeedInv lib (s.receive lib json).io (n.note lib s (.receive json) (s.receive lib json)) := by
  have horder : (n.told.map Prod.fst).Sublist n.received := by
    simpa [hidle, Io.left] using h.order
  have hwaiting : ∀ (io' : Io) (entries : List Json), io'.left n.entry = entries →
      (∀ report rest, io' ≠ .report report rest) → (∀ fill rest, io' ≠ .hand fill rest) →
      FeedInv lib io' { n with received := n.received ++ entries } := by
    intro io' entries hleft hreport hhand
    refine ⟨?_, fun report rest heq => absurd heq (hreport report rest),
      fun fill rest heq => absurd heq (hhand fill rest), h.faithful⟩
    dsimp only
    rw [hleft]
    exact horder.append (List.Sublist.refl _)
  unfold System.receive
  cases hwork : workOf lib json with
  | none =>
    have hnote : n.note lib s (.receive json) s = { n with received := n.received ++ [] } := by
      simp [Feed.note, entriesOf, hwork]
    rw [hnote]
    exact hwaiting _ _ (by simp [hidle, Io.left]) (by simp [hidle]) (by simp [hidle])
  | quote coin quote =>
    obtain ⟨data, hdata, hread⟩ := workOf_quote lib hwork
    have hquote : Faithful lib json (.quote coin quote) := ⟨data, hdata, hread⟩
    have harrived : entriesOf lib json = [json] := by simp [entriesOf, hwork]
    have hfirst : (n.note lib s (.receive json)
        { s with gateway := s.gateway.onBbo coin quote }).told.map Prod.fst |>.Sublist
          (n.received ++ [json]) := by
      dsimp only [Feed.note]
      rcases @news_onBbo_cases s { s with gateway := s.gateway.onBbo coin quote } coin quote rfl
        with hone | hnone
      · rw [hone]
        simpa using horder
      · rw [hnone]
        simpa using horder.trans (List.sublist_append_left _ [json])
    refine ⟨?_, by simp [hidle], by simp [hidle], ?_⟩
    · dsimp only [Feed.note] at hfirst ⊢
      rw [harrived, hidle]
      exact (List.append_nil _).symm ▸ hfirst
    · intro entry event hmem
      rcases List.mem_append.mp hmem with hold | hnew
      · exact h.faithful entry event hold
      · obtain ⟨e, he, heq⟩ := List.mem_map.mp hnew
        obtain ⟨rfl, rfl⟩ := Prod.mk.inj heq
        obtain rfl := news_onBbo rfl e he
        exact hquote
  | orders entries =>
    have hnote : n.note lib s (.receive json) { s with io := .orders entries } =
        { n with received := n.received ++ entries } := by
      simp [Feed.note, entriesOf, hwork]
    rw [hnote]
    exact hwaiting _ _ rfl (by simp) (by simp)
  | fills entries =>
    have hnote : n.note lib s (.receive json)
        { s with io := .fills entries, history := s.arrivals entries ++ s.history } =
        { n with received := n.received ++ entries } := by
      simp [Feed.note, entriesOf, hwork]
    rw [hnote]
    exact hwaiting _ _ rfl (by simp) (by simp)

/-- The calling threads leave the stream's thread where it is. -/
lemma step {a : Action} (h : FeedInv lib s.io n) (hs : step lib s a = some s') :
    FeedInv lib s'.io (n.note lib s a s') := by
  cases effect_of_step lib hs with
  | received hidle => exact h.receive lib hidle _
  | io heff => exact h.io lib heff
  | _ => exact h

end FeedInv

/-- The quotes of the book messages that have arrived, the latest first. -/
def noteQuotes (n : List (String × Quote)) (_ : System) (a : Action) (_ : System) :
    List (String × Quote) :=
  match a with
  | .receive json =>
    match workOf lib json with
    | .quote coin quote => (coin, quote) :: n
    | _ => n
  | _ => n

end

def toldQuote : Event → Option (String × Quote)
  | .quote coin quote => some (coin, quote)
  | _ => none

/-- The cache and the callback keep up with the book messages. -/
structure QuotesInv (quoteCB : Bool) (p : Gateway) (n : List (String × Quote)) : Prop where
  heard : p.quoteCB = quoteCB
  cached : ∀ coin, p.quoteCache coin = (n.find? (·.1 = coin)).map (·.2)
  told : p.delivered.filterMap toldQuote = if quoteCB then n.reverse else []

namespace QuotesInv
variable {quoteCB : Bool} {p : Gateway} {n : List (String × Quote)}

lemma deliver (h : QuotesInv quoteCB p n) {event : Event} (hevent : toldQuote event = none) :
    QuotesInv quoteCB (p.deliver event) n where
  heard := h.heard
  cached := h.cached
  told := by
    rw [Gateway.deliver_delivered, List.filterMap_append, List.filterMap_cons_none hevent,
      List.filterMap_nil, List.append_nil]
    exact h.told

lemma reportUpdate (h : QuotesInv quoteCB p n) (update : OrderUpdate) :
    QuotesInv quoteCB (p.reportUpdate update) n := by
  unfold Gateway.reportUpdate
  split
  · exact h.deliver rfl
  · exact h

lemma onBbo (h : QuotesInv quoteCB p n) (coin : String) (quote : Quote) :
    QuotesInv quoteCB (p.onBbo coin quote) ((coin, quote) :: n) := by
  have hcached : ∀ coin', Function.update p.quoteCache coin (some quote) coin' =
      (((coin, quote) :: n).find? (·.1 = coin')).map (·.2) := by
    intro coin'
    by_cases hcoin : coin = coin'
    · subst hcoin
      rw [Function.update_self, List.find?_cons_of_pos (by simp)]
      rfl
    · rw [Function.update_of_ne (Ne.symm hcoin), List.find?_cons_of_neg (by simpa using hcoin)]
      exact h.cached coin'
  have htold := h.told
  cases hcb : p.quoteCB with
  | true =>
    have hon : quoteCB = true := h.heard.symm.trans hcb
    have hp : p.onBbo coin quote =
        { p with quoteCache := Function.update p.quoteCache coin (some quote) }.deliver
          (.quote coin quote) := by simp [Gateway.onBbo, hcb]
    rw [hp]
    refine ⟨h.heard, hcached, ?_⟩
    rw [hon, if_pos rfl] at htold ⊢
    rw [Gateway.deliver_delivered, List.filterMap_append, htold, List.reverse_cons]
    rfl
  | false =>
    have hoff : quoteCB = false := h.heard.symm.trans hcb
    have hp : p.onBbo coin quote =
        { p with quoteCache := Function.update p.quoteCache coin (some quote) } := by
      simp [Gateway.onBbo, hcb]
    rw [hp]
    refine ⟨h.heard, hcached, ?_⟩
    rw [hoff] at htold ⊢
    exact htold

section
variable (lib : Library)

lemma io {s s' : System} (h : QuotesInv quoteCB s.gateway n) (heff : IoEffect lib s s') :
    QuotesInv quoteCB s'.gateway n := by
  cases heff with
  | reported hio => exact h.reportUpdate _
  | pruned hio => exact { h with }
  | handed hio => exact h.deliver rfl
  | _ => exact h

lemma step {s s' : System} {a : Action} (h : QuotesInv quoteCB s.gateway n)
    (hs : step lib s a = some s') : QuotesInv quoteCB s'.gateway (noteQuotes lib n s a s') := by
  cases effect_of_step lib hs with
  | drawn hcall => exact { h with }
  | registered hcall => exact { h with }
  | refused hcall => exact { h with }
  | reemits hcall hfound htid => exact h.deliver rfl
  | @received json hio =>
    unfold System.receive noteQuotes
    cases hwork : workOf lib json with
    | quote coin quote => simpa only [hwork] using h.onBbo coin quote
    | _ => simpa only [hwork] using h
  | io heff => exact h.io lib heff
  | _ => exact h

end

end QuotesInv

section
variable (lib : Library)

end

end HyperliquidApi.GatewayRuns
