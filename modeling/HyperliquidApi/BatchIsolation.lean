import HyperliquidApi.OrderEvents

/-!
# Foreign entries in a batch

One account's feed also carries orders placed elsewhere. Whether such an entry leaves the rest
of its message alone depends on the JSON shape of its client id.
-/
namespace HyperliquidApi

namespace Gateway

lemma forEach_append (handle : Gateway → Json → Except JsonError Gateway) (p : Gateway)
    (xs ys : List Json) : p.forEach handle (xs ++ ys) =
      match p.forEach handle xs with
      | (p', none) => p'.forEach handle ys
      | (p', some e) => (p', some e) := by
  induction xs generalizing p with
  | nil => rfl
  | cons x xs ih =>
    simp only [List.cons_append, forEach]
    cases handle p x with
    | error e => rfl
    | ok p' => exact ih p'

/-- A property that every entry keeps holds after the message, however it ends. -/
lemma forEach_invariant {handle : Gateway → Json → Except JsonError Gateway} {Q : Gateway → Prop}
    (keep : ∀ p entry p', Q p → handle p entry = .ok p' → Q p') {p : Gateway} (h : Q p)
    (entries : List Json) : Q (p.forEach handle entries).1 := by
  induction entries generalizing p with
  | nil => exact h
  | cons entry entries ih =>
    unfold forEach
    cases hp : handle p entry with
    | error e => exact h
    | ok p' => exact ih (keep p entry p' h hp)

end Gateway

/-- The two batched channels; a fills message has further members. -/
inductive Feed
  | orderUpdates
  | userFills (others : List (String × Json))

namespace Feed

def message : Feed → List Json → Json
  | orderUpdates, entries => .object [("channel", .string "orderUpdates"), ("data", .array entries)]
  | userFills others, entries =>
    .object [("channel", .string "userFills"), ("data", .object (("fills", .array entries) :: others))]

/-- Not marked as a snapshot of historical fills. -/
def Live : Feed → Prop
  | orderUpdates => True
  | userFills others =>
    others.lookup "isSnapshot" = none ∨ others.lookup "isSnapshot" = some (.bool false)

def cloid : Feed → Json → Option Json
  | orderUpdates, entry => (entry.find "order").bind (·.find "cloid")
  | userFills _, entry => entry.find "cloid"

/-- The client id is absent, no string, or not registered. -/
def Foreign (feed : Feed) (m : OrderMaps) (entry : Json) : Prop :=
  ∀ k, feed.cloid entry = some (.string k) → m.byCloid k = none

/-- The client id can be read with the empty string as its default. -/
def Decodes : Feed → Json → Prop
  | orderUpdates, entry => ∀ order, entry.find "order" = some order → order.isObject = true →
    order.Readable Json.asString "cloid"
  | userFills _, entry => entry.Readable Json.asString "cloid"

/-- The handlers of this feed have nothing to report or to prune. -/
def Silent (feed : Feed) (p : Gateway) : Prop :=
  (∀ k, k ≠ "" → p.orders.byCloid k = none) ∨ feed ≠ orderUpdates ∧ p.fillCB = false

variable (lib : Library)

/-- The handler that runs for each entry. -/
def handle : Feed → Gateway → Json → Except JsonError Gateway
  | orderUpdates => Gateway.onOrderUpdateMsg lib
  | userFills _ => Gateway.emitFill lib

lemma dispatch_message (feed : Feed) (hlive : feed.Live) (p : Gateway) (entries : List Json) :
    p.dispatch lib (feed.message entries) = (p.forEach (feed.handle lib) entries).1 := by
  cases feed with
  | orderUpdates => rfl
  | userFills others =>
    have hsnapshot : (Json.object (("fills", .array entries) :: others)).value Json.asBool
        "isSnapshot" false = .ok false := by
      rcases hlive with h | h
      · exact Json.value_of_absent h
      · have hfind : (Json.object (("fills", .array entries) :: others)).find "isSnapshot" =
            some (.bool false) := h
        exact Json.value_of_find (a := false) hfind (by rfl) false
    have hfills : fillsOf (.object (("fills", .array entries) :: others)) = .ok entries := by
      simp only [fillsOf, hsnapshot]
      rfl
    have hmessage : p.dispatch lib ((userFills others).message entries) =
        (p.onUserFillsMsg lib (.object (("fills", .array entries) :: others))).1 := rfl
    rw [hmessage, Gateway.onUserFillsMsg, hfills]
    rfl

/-- Client ids are registered by submits only. -/
lemma handle_keeps_unregistered (feed : Feed) {p p' : Gateway} {entry : Json} {k : String}
    (h : p.orders.byCloid k = none) (hp : feed.handle lib p entry = .ok p') :
    p'.orders.byCloid k = none := by
  cases feed with
  | orderUpdates =>
    obtain rfl | ⟨report, _, rfl⟩ := Gateway.onOrderUpdateMsg_cases lib hp
    · exact h
    · split
      · simp [Function.update_apply, h]
      · simpa using h
  | userFills others =>
    obtain rfl | ⟨_, fill, _, rfl⟩ := Gateway.emitFill_cases lib hp
    · exact h
    · exact h

/-- A foreign entry whose client id can be read has no effect. -/
lemma handle_foreign (feed : Feed) {p : Gateway} {entry : Json} (h : feed.Foreign p.orders entry)
    (hd : feed.Decodes entry) : feed.handle lib p entry = .ok p := by
  cases feed with
  | orderUpdates =>
    suffices hread : readOrderUpdate lib p.orders entry = .ok none by
      simp [handle, Gateway.onOrderUpdateMsg, hread]
    unfold readOrderUpdate
    cases ho : entry.find "order" with
    | none => rfl
    | some order =>
      by_cases hobj : order.isObject = true
      · obtain ⟨k, hk⟩ := (Json.value_ok_iff _ _ _ "").mpr (hd order ho hobj)
        simp only [hobj, hk, if_true]
        by_cases hempty : k = ""
        · simp [hempty, bind, Except.bind, pure, Except.pure]
        · have hnone := h k (by simp [cloid, ho, Json.find_of_string_value hk hempty])
          simp [hempty, bind, Except.bind, pure, Except.pure, OrderMaps.recForCloid, hnone]
      · simp [hobj]
  | userFills others =>
    suffices hread : readFill lib p.orders entry = .ok none by
      simp [handle, Gateway.emitFill, hread]
    obtain ⟨k, hk⟩ := (Json.value_ok_iff _ _ _ "").mpr hd
    unfold readFill
    by_cases hempty : k = ""
    · simp [hk, hempty, bind, Except.bind, pure, Except.pure]
    · have hnone := h k (by simp [cloid, Json.find_of_string_value hk hempty])
      simp [hk, hempty, bind, Except.bind, pure, Except.pure, OrderMaps.recForCloid, hnone]

lemma handle_undecoded (feed : Feed) {p : Gateway} {entry : Json} (h : ¬ feed.Decodes entry)
    (hcb : feed ≠ orderUpdates → p.fillCB = true) : ∃ e, feed.handle lib p entry = .error e := by
  cases feed with
  | orderUpdates =>
    simp only [Decodes, not_forall] at h
    obtain ⟨order, ho, hobj, hread⟩ := h
    cases hv : order.value Json.asString "cloid" "" with
    | ok k => exact absurd ((Json.value_ok_iff _ _ _ _).mp ⟨k, hv⟩) hread
    | error e =>
      exact ⟨e, by simp [handle, Gateway.onOrderUpdateMsg, readOrderUpdate, ho, hobj, hv, bind,
        Except.bind]⟩
  | userFills others =>
    cases hv : entry.value Json.asString "cloid" "" with
    | ok k => exact absurd ((Json.value_ok_iff _ _ _ _).mp ⟨k, hv⟩) h
    | error e =>
      exact ⟨e, by simp [handle, Gateway.emitFill, hcb (by simp), readFill, hv, bind, Except.bind]⟩

lemma handle_silent (feed : Feed) {p p' : Gateway} {entry : Json} (h : feed.Silent p)
    (hp : feed.handle lib p entry = .ok p') : p' = p := by
  cases feed with
  | orderUpdates =>
    obtain hnone : ∀ k, k ≠ "" → p.orders.byCloid k = none := by simpa [Silent] using h
    obtain rfl | ⟨report, hread, _⟩ := Gateway.onOrderUpdateMsg_cases lib hp
    · rfl
    · obtain ⟨hk, rec, hrec, _⟩ := readOrderUpdate_some lib hread
      rw [hnone _ hk] at hrec
      cases hrec
  | userFills others =>
    obtain rfl | ⟨hcb, fill, hread, _⟩ := Gateway.emitFill_cases lib hp
    · rfl
    · obtain ⟨k, rec, _, hk, hrec, _⟩ := readFill_some lib hread
      rcases h with hnone | ⟨_, hunset⟩
      · rw [hnone _ hk] at hrec
        cases hrec
      · rw [hunset] at hcb
        cases hcb

/-- The smallest entry about a client id that always has an effect. -/
def plainEntry : Feed → String → Json
  | orderUpdates, k =>
    .object [("order", .object [("cloid", .string k)]), ("status", .string "filled")]
  | userFills _, k => .object [("cloid", .string k)]

lemma handle_plainEntry (feed : Feed) {p : Gateway} {k : String} (hk : k ≠ "")
    (hreg : p.orders.byCloid k ≠ none) (hcb : feed ≠ orderUpdates → p.fillCB = true) :
    ∃ p', feed.handle lib p (feed.plainEntry k) = .ok p' ∧ p' ≠ p := by
  obtain ⟨rec, hrec⟩ := Option.ne_none_iff_exists'.mp hreg
  cases feed with
  | orderUpdates =>
    obtain ⟨report, hread, hterminal, hcloid⟩ : ∃ report, readOrderUpdate lib p.orders
        (orderUpdates.plainEntry k) = .ok (some report) ∧ report.terminal = true ∧
        report.cloid = k := by
      have hrec' : p.orders.recForCloid k = some rec := hrec
      simp [readOrderUpdate, plainEntry, Json.find, Json.value, Json.isObject, Json.asString,
        List.lookup, hk, hrec', orderStateOf, bind, Except.bind, pure, Except.pure]
    have hp : orderUpdates.handle lib p (orderUpdates.plainEntry k) =
        .ok ((p.reportUpdate report.update).pruneCloid k) := by
      simp [handle, Gateway.onOrderUpdateMsg, hread, hterminal, hcloid]
    refine ⟨_, hp, ?_⟩
    intro heq
    have hpruned := congrArg (fun q => q.orders.byCloid k) heq
    simp [hrec] at hpruned
  | userFills others =>
    obtain ⟨fill, hread⟩ : ∃ fill, readFill lib p.orders ((userFills others).plainEntry k) =
        .ok (some fill) := by
      have hrec' : p.orders.recForCloid k = some rec := hrec
      simp [readFill, fillEvent, plainEntry, Json.find, Json.value, Json.isObject, Json.asString,
        List.lookup, hk, hrec', bind, Except.bind, pure, Except.pure]
    have hp : (userFills others).handle lib p ((userFills others).plainEntry k) =
        .ok (p.deliver (.fill fill)) := by
      simp [handle, Gateway.emitFill, hcb (by simp), hread]
    refine ⟨_, hp, ?_⟩
    intro heq
    have hlen := congrArg (fun q => q.delivered.length) heq
    simp at hlen

end Feed

open Feed in
/-- A foreign entry leaves the rest of its message alone exactly when its client id can be
read, unless no entry at all would have an effect. -/
theorem dispatch_isolates_iff (lib : Library) (feed : Feed) (hlive : feed.Live)
    (p : Gateway) (bad : Json) (hbad : feed.Foreign p.orders bad) :
    (∀ xs ys, p.dispatch lib (feed.message (xs ++ [bad] ++ ys)) =
      p.dispatch lib (feed.message (xs ++ ys))) ↔ feed.Decodes bad ∨ feed.Silent p := by
  simp only [dispatch_message lib feed hlive, List.append_assoc, List.singleton_append]
  constructor
  · intro h
    by_contra hneither
    obtain ⟨hdecodes, hsilent⟩ := not_or.mp hneither
    obtain ⟨hsome, hcb⟩ := not_or.mp hsilent
    simp only [not_forall] at hsome
    obtain ⟨k, hk, hreg⟩ := hsome
    have hcb' : feed ≠ orderUpdates → p.fillCB = true := by
      intro hfeed
      by_contra hunset
      exact hcb ⟨hfeed, by simpa using hunset⟩
    obtain ⟨e, he⟩ := handle_undecoded lib feed hdecodes hcb'
    obtain ⟨p', hp', hne⟩ := handle_plainEntry lib feed hk hreg hcb'
    have heq := h [] [feed.plainEntry k]
    simp only [List.nil_append, Gateway.forEach, he, hp'] at heq
    exact hne heq.symm
  · intro hcases xs ys
    rcases hcases with hdecodes | hsilent
    · have hforeign : feed.Foreign (p.forEach (feed.handle lib) xs).1.orders bad := by
        intro k hk
        exact Gateway.forEach_invariant (fun _ _ _ => handle_keeps_unregistered lib feed)
          (hbad k hk) xs
      rw [Gateway.forEach_append, Gateway.forEach_append]
      split
      · rename_i p₁ hxs
        rw [hxs] at hforeign
        rw [Gateway.forEach, handle_foreign lib feed hforeign hdecodes]
      · rfl
    · have hstays : ∀ entries, (p.forEach (feed.handle lib) entries).1 = p := by
        intro entries
        apply Gateway.forEach_invariant (Q := (· = p)) _ rfl
        intro q entry q' hq hstep
        subst hq
        exact handle_silent lib feed hsilent hstep
      rw [hstays, hstays]

def withoutCloid : Json := .object [("coin", .string "BTC"), ("tid", .number (.unsigned 7))]

def nullCloid : Json := .object [("cloid", .null), ("tid", .number (.unsigned 7))]

theorem dispatch_isolates_without_cloid :
    oneOrder.dispatch noNumbers ((Feed.userFills []).message
      [withoutCloid, (Feed.userFills []).plainEntry (formatCloid 1000 1)]) =
    oneOrder.dispatch noNumbers ((Feed.userFills []).message
      [(Feed.userFills []).plainEntry (formatCloid 1000 1)]) := by
  have hforeign : (Feed.userFills []).Foreign oneOrder.orders withoutCloid := by
    intro k hk
    cases hk
  have hdecodes : (Feed.userFills []).Decodes withoutCloid := by
    refine ⟨rfl, ?_⟩
    intro member hm
    cases hm
  have hiff := dispatch_isolates_iff noNumbers (.userFills []) (Or.inl rfl) oneOrder
    withoutCloid hforeign
  exact hiff.mpr (.inl hdecodes) [] [_]

/-- A fill without a client id, sent as `null`, ends its message: the gateway's own fill after
it is not reported. -/
theorem dispatch_loses_fill_after_null_cloid :
    (Feed.userFills []).Foreign oneOrder.orders nullCloid ∧
    (oneOrder.dispatch noNumbers ((Feed.userFills []).message
      [nullCloid, (Feed.userFills []).plainEntry (formatCloid 1000 1)])).delivered = [] ∧
    (oneOrder.dispatch noNumbers ((Feed.userFills []).message
      [(Feed.userFills []).plainEntry (formatCloid 1000 1)])).delivered =
        [.fill ⟨"a", "BTC", "0", 0, 0, true⟩] := by
  refine ⟨?_, rfl, rfl⟩
  intro k hk
  cases hk

end HyperliquidApi
