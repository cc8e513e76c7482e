import HyperliquidApi.FixedHex
import HyperliquidApi.Runs

/-!
# Order bookkeeping

The gateway maps its callers' order ids to the venue's 16-byte hex ids and back. Both maps
are functions into `Option`; a generated id is the clock in milliseconds and a counter, 16
hexadecimal digits each.
-/
namespace HyperliquidApi
open FixedHex Runs

structure OrderRec where
  clientOrderId : String
  symbol : String
  origSz : ℚ
  deriving DecidableEq

structure OrderMaps where
  byCloid : String → Option OrderRec
  clientToCloid : String → Option String
  cloidCounter : ℕ

/-- `0x{:016x}{:016x}` -/
def formatCloid (ms counter : ℕ) : String :=
  String.ofList ('0' :: 'x' :: fixedHex 16 ms ++ fixedHex 16 counter)

lemma formatCloid_ne_empty (ms counter : ℕ) : formatCloid ms counter ≠ "" := by
  intro h
  simpa [formatCloid] using congrArg String.length h

namespace OrderMaps

def empty : OrderMaps := ⟨fun _ => none, fun _ => none, 1⟩

/-- The locked half of `makeCloid`. -/
def register (m : OrderMaps) (cloid : String) (rec : OrderRec) : OrderMaps :=
  { m with
    byCloid := Function.update m.byCloid cloid (some rec)
    clientToCloid := Function.update m.clientToCloid rec.clientOrderId (some cloid) }

/-- The counter is a 64-bit atomic: `fetch_add` returns the old value and wraps. -/
def fetchAdd (m : OrderMaps) : OrderMaps := { m with cloidCounter := (m.cloidCounter + 1) % 2^64 }

def makeCloid (m : OrderMaps) (ms : ℕ) (clientOrderId symbol : String) (origSz : ℚ) :
    String × OrderMaps :=
  let cloid := formatCloid ms m.cloidCounter
  (cloid, m.fetchAdd.register cloid ⟨clientOrderId, symbol, origSz⟩)

def recForCloid (m : OrderMaps) (cloid : String) : Option OrderRec := m.byCloid cloid

/-- The empty string stands for an unknown client order. -/
def cloidFor (m : OrderMaps) (clientOrderId : String) : String :=
  (m.clientToCloid clientOrderId).getD ""

def pruneCloid (m : OrderMaps) (cloid : String) : OrderMaps :=
  match m.byCloid cloid with
  | none => m
  | some rec =>
    { m with
      byCloid := Function.update m.byCloid cloid none
      clientToCloid := Function.update m.clientToCloid rec.clientOrderId none }

@[simp] lemma register_byCloid (m : OrderMaps) (k : String) (rec : OrderRec) :
    (m.register k rec).byCloid = Function.update m.byCloid k (some rec) := rfl

@[simp] lemma register_clientToCloid (m : OrderMaps) (k : String) (rec : OrderRec) :
    (m.register k rec).clientToCloid =
      Function.update m.clientToCloid rec.clientOrderId (some k) := rfl

@[simp] lemma fetchAdd_byCloid (m : OrderMaps) : m.fetchAdd.byCloid = m.byCloid := rfl

@[simp] lemma fetchAdd_clientToCloid (m : OrderMaps) :
    m.fetchAdd.clientToCloid = m.clientToCloid := rfl

@[simp] lemma pruneCloid_byCloid (m : OrderMaps) (k : String) :
    (m.pruneCloid k).byCloid = Function.update m.byCloid k none := by
  unfold pruneCloid
  split
  · rename_i h
    rw [← h, Function.update_eq_self]
  · rfl

lemma pruneCloid_eq_some {m : OrderMaps} {k k' : String} {rec : OrderRec} :
    (m.pruneCloid k).byCloid k' = some rec ↔ k' ≠ k ∧ m.byCloid k' = some rec := by
  by_cases hk : k' = k <;> simp [hk]

lemma pruneCloid_eq_none {m : OrderMaps} {k k' : String} :
    (m.pruneCloid k).byCloid k' = none ↔ k' = k ∨ m.byCloid k' = none := by
  by_cases hk : k' = k <;> simp [hk]

lemma pruneCloid_of_none {m : OrderMaps} {k : String} (h : m.byCloid k = none) :
    m.pruneCloid k = m := by simp [pruneCloid, h]

lemma pruneCloid_clientToCloid {m : OrderMaps} {k : String} {rec : OrderRec}
    (h : m.byCloid k = some rec) :
    (m.pruneCloid k).clientToCloid = Function.update m.clientToCloid rec.clientOrderId none := by
  simp [pruneCloid, h]

@[simp] lemma pruneCloid_cloidCounter (m : OrderMaps) (k : String) :
    (m.pruneCloid k).cloidCounter = m.cloidCounter := by
  unfold pruneCloid
  split <;> rfl

lemma formatCloid_digits {ms counter ms' counter' : ℕ}
    (h : formatCloid ms counter = formatCloid ms' counter') :
    fixedHex 16 ms = fixedHex 16 ms' ∧ fixedHex 16 counter = fixedHex 16 counter' := by
  have hl := String.ofList_injective h
  simp only [List.cons_append, List.cons.injEq, true_and] at hl
  exact List.append_inj hl (by simp [fixedHex_length])

/-- Whatever the clock read, the counter tells generated ids apart. -/
lemma counter_eq_of_formatCloid_eq {ms counter ms' counter' : ℕ} (hc : counter < 2^64)
    (hc' : counter' < 2^64) (h : formatCloid ms counter = formatCloid ms' counter') :
    counter = counter' :=
  fixedHex_inj (by simpa using hc) (by simpa using hc') (formatCloid_digits h).2

/-- Ids generated from clock readings and counters below 2^64 are equal only when both are. -/
theorem formatCloid_inj {ms counter ms' counter' : ℕ} (hms : ms < 2^64) (hc : counter < 2^64)
    (hms' : ms' < 2^64) (hc' : counter' < 2^64)
    (h : formatCloid ms counter = formatCloid ms' counter') : ms = ms' ∧ counter = counter' :=
  ⟨fixedHex_inj (by simpa using hms) (by simpa using hms') (formatCloid_digits h).1,
    counter_eq_of_formatCloid_eq hc hc' h⟩

/-- The maps together with what they stand for: the orders registered and not yet pruned, as
pairs of id and client order, the most recent first. -/
structure Ledger where
  maps : OrderMaps
  live : List (String × String)

inductive Op
  | makeCloid (ms : ℕ) (clientOrderId symbol : String) (origSz : ℚ)
  | pruneCloid (cloid : String)

def step (s : Ledger) : Op → Option Ledger
  | .makeCloid ms c symbol sz =>
    let made := s.maps.makeCloid ms c symbol sz
    some ⟨made.2, (made.1, c) :: s.live⟩
  | .pruneCloid k => some ⟨s.maps.pruneCloid k, s.live.filter fun e => e.1 ≠ k⟩

def initial : Ledger := ⟨empty, []⟩

/-- The most recently registered order of a client id that is still unpruned. -/
def mostRecent (live : List (String × String)) (c : String) : Option String :=
  (live.find? fun e => e.2 = c).map Prod.fst

/-- Both directions of the bookkeeping agree, and a client id leads to its latest live order. -/
def Addressable (s : Ledger) : Prop :=
  (∀ c k, s.maps.clientToCloid c = some k →
    ∃ rec, s.maps.byCloid k = some rec ∧ rec.clientOrderId = c) ∧
  ∀ k rec, s.maps.byCloid k = some rec →
    ∃ k', s.maps.clientToCloid rec.clientOrderId = some k' ∧
      mostRecent s.live rec.clientOrderId = some k'

/-- The steps that keep the maps in agreement: a generated id is not registered already, and an
order is pruned while it is its client id's only registered one. -/
def Unshared (s : Ledger) : Op → Prop
  | .makeCloid ms _ _ _ => s.maps.byCloid (formatCloid ms s.maps.cloidCounter) = none
  | .pruneCloid k => ∀ rec, s.maps.byCloid k = some rec → ∀ k' rec',
    s.maps.byCloid k' = some rec' → rec'.clientOrderId = rec.clientOrderId → k' = k

/-- The maps are the lookups into the list of live orders. -/
structure Faithful (s : Ledger) : Prop where
  distinct : (s.live.map Prod.fst).Nodup
  forward : ∀ k c, (k, c) ∈ s.live ↔ ∃ rec, s.maps.byCloid k = some rec ∧ rec.clientOrderId = c
  backward : ∀ c, s.maps.clientToCloid c = mostRecent s.live c

lemma mostRecent_mem {live : List (String × String)} {c k : String}
    (h : mostRecent live c = some k) : (k, c) ∈ live := by
  obtain ⟨e, he, rfl⟩ := Option.map_eq_some_iff.mp h
  have hc : e.2 = c := by simpa using List.find?_some he
  exact hc ▸ List.mem_of_find?_eq_some he

lemma mostRecent_isSome {live : List (String × String)} {c k : String} (h : (k, c) ∈ live) :
    ∃ k', mostRecent live c = some k' := by
  apply Option.isSome_iff_exists.mp
  simp only [mostRecent, Option.isSome_map, List.find?_isSome, decide_eq_true_eq]
  exact ⟨(k, c), h, rfl⟩

/-- Dropping orders of other client ids leaves a client id's latest order. -/
lemma mostRecent_filter {live : List (String × String)} {c k : String}
    (h : ∀ e ∈ live, e.2 = c → e.1 ≠ k) :
    mostRecent (live.filter fun e => e.1 ≠ k) c = mostRecent live c := by
  unfold mostRecent
  rw [List.find?_filter]
  congr 1
  induction live with
  | nil => rfl
  | cons e live ih =>
    have hi := ih fun e' he' => h e' (by simp [he'])
    by_cases hc : e.2 = c
    · have hk := h e (by simp) hc
      simp [hc, hk]
    · simpa [hc] using hi

lemma initial_faithful : Faithful initial :=
  ⟨by simp [initial], by simp [initial, empty], by simp [initial, empty, mostRecent]⟩

lemma Faithful.makeCloid {s s' : Ledger} (h : Faithful s) {ms : ℕ} {c symbol : String} {sz : ℚ}
    (hfresh : s.maps.byCloid (formatCloid ms s.maps.cloidCounter) = none)
    (hs : step s (.makeCloid ms c symbol sz) = some s') : Faithful s' := by
  obtain rfl := Option.some.inj hs
  have hnew : ∀ c', (formatCloid ms s.maps.cloidCounter, c') ∉ s.live := by
    intro c' hm
    obtain ⟨rec, hrec, _⟩ := (h.forward _ _).mp hm
    rw [hfresh] at hrec
    cases hrec
  constructor
  · simp only [OrderMaps.makeCloid, List.map_cons, List.nodup_cons]
    refine ⟨?_, h.distinct⟩
    intro hm
    obtain ⟨e, he, hk⟩ := List.mem_map.mp hm
    exact hnew e.2 (by rw [← hk]; exact he)
  · intro k c'
    have hf := h.forward k c'
    by_cases hk : k = formatCloid ms s.maps.cloidCounter
    · subst hk
      simp [OrderMaps.makeCloid, hnew, eq_comm]
    · simp [OrderMaps.makeCloid, hf, hk]
  · intro c'
    have hb := h.backward c'
    by_cases hc : c' = c
    · simp [OrderMaps.makeCloid, hc, mostRecent]
    · have hc' : ¬ c = c' := fun he => hc he.symm
      simpa [OrderMaps.makeCloid, Function.update_of_ne hc, mostRecent, hc'] using hb

lemma Faithful.pruneCloid {s s' : Ledger} (h : Faithful s) {k : String}
    (hsole : Unshared s (.pruneCloid k)) (hs : step s (.pruneCloid k) = some s') : Faithful s' := by
  obtain rfl := Option.some.inj hs
  cases hrec : s.maps.byCloid k with
  | none =>
    have hkeep : s.live.filter (fun e => e.1 ≠ k) = s.live := by
      apply List.filter_eq_self.mpr
      intro e he
      obtain ⟨rec, hr, _⟩ := (h.forward e.1 e.2).mp he
      simp only [ne_eq, decide_eq_true_eq]
      intro hk
      rw [hk, hrec] at hr
      cases hr
    rw [OrderMaps.pruneCloid_of_none hrec, hkeep]
    exact h
  | some rec =>
    have hclient : ∀ k' c', (k', c') ∈ s.live → c' = rec.clientOrderId → k' = k := by
      intro k' c' hm hc
      obtain ⟨rec', hr, hc'⟩ := (h.forward k' c').mp hm
      exact hsole rec hrec k' rec' hr (hc'.trans hc)
    constructor
    · exact (List.filter_sublist.map _).nodup h.distinct
    · intro k' c'
      have hf := h.forward k' c'
      by_cases hk : k' = k
      · simp [hk]
      · simp [hk, hf]
    · intro c'
      rw [OrderMaps.pruneCloid_clientToCloid hrec]
      by_cases hc : c' = rec.clientOrderId
      · have hnone : mostRecent (s.live.filter fun e => e.1 ≠ k) c' = none := by
          rw [Option.eq_none_iff_forall_not_mem]
          intro k' hk'
          have hm := List.mem_filter.mp (mostRecent_mem hk')
          exact absurd (hclient k' c' hm.1 hc) (by simpa using hm.2)
        rw [hnone, hc, Function.update_self]
      · rw [Function.update_of_ne hc, h.backward]
        symm
        apply mostRecent_filter
        intro e he hec hek
        obtain ⟨rec', hr, hc'⟩ := (h.forward e.1 e.2).mp he
        rw [hek, hrec] at hr
        obtain rfl := Option.some.inj hr
        exact hc (hec.symm.trans hc'.symm)

lemma Faithful.addressable {s : Ledger} (h : Faithful s) : Addressable s := by
  constructor
  · intro c k hk
    rw [h.backward] at hk
    exact (h.forward k c).mp (mostRecent_mem hk)
  · intro k rec hrec
    obtain ⟨k', hk'⟩ := mostRecent_isSome ((h.forward k _).mpr ⟨rec, hrec, rfl⟩)
    exact ⟨k', (h.backward _).trans hk', hk'⟩

/-- In runs that prune an order only while its client id has no other registered one, every
live order stays addressable through its client id. -/
theorem orders_addressable {ops : List Op} {s : Ledger} (h : Run step Unshared initial ops s) :
    Addressable s := by
  apply Faithful.addressable
  apply Run.invariant initial_faithful _ h
  intro s op s' hs hok hstep
  cases op with
  | makeCloid ms c symbol sz => exact hs.makeCloid hok hstep
  | pruneCloid k => exact hs.pruneCloid hok hstep

/-- Two client orders; the first one ends. -/
theorem orders_addressable_two_clients : ∃ s,
    Run step Unshared initial [.makeCloid 1000 "a" "BTC" 1, .makeCloid 1000 "b" "ETH" 2,
      .pruneCloid (formatCloid 1000 1)] s ∧ Addressable s := by
  obtain ⟨s, hs⟩ : ∃ s, Run step Unshared initial [.makeCloid 1000 "a" "BTC" 1,
      .makeCloid 1000 "b" "ETH" 2, .pruneCloid (formatCloid 1000 1)] s := by
    have hfirst : Run step Unshared initial [.makeCloid 1000 "a" "BTC" 1] _ :=
      Run.snoc .nil rfl rfl
    have hsecond := Run.snoc (a := Op.makeCloid 1000 "b" "ETH" 2) hfirst rfl rfl
    refine ⟨_, Run.snoc hsecond ?_ rfl⟩
    intro rec hrec k' rec' hrec' hc
    by_cases hb : k' = formatCloid 1000 2
    · subst hb
      obtain rfl := Option.some.inj hrec
      obtain rfl := Option.some.inj hrec'
      exact absurd hc (by decide)
    · by_contra ha
      have hmap : Function.update (Function.update (fun _ => none) (formatCloid 1000 1)
          (some ⟨"a", "BTC", 1⟩)) (formatCloid 1000 2) (some ⟨"b", "ETH", 2⟩) k' = some rec' :=
        hrec'
      rw [Function.update_of_ne hb, Function.update_of_ne ha] at hmap
      cases hmap
  exact ⟨s, hs, orders_addressable hs⟩

/-- A client order is submitted again before the venue ends its first order. The end of the
first order also erases the entry of the second, which stays on the book. -/
theorem orders_unaddressable_after_resubmit : ∃ s,
    Run step anyStep initial [.makeCloid 1000 "a" "BTC" 1, .makeCloid 1001 "a" "BTC" 1,
      .pruneCloid (formatCloid 1000 1)] s ∧ ¬ Addressable s := by
  refine ⟨_, run_of_execute rfl, ?_⟩
  intro h
  obtain ⟨k', hk', _⟩ := h.2 (formatCloid 1001 2) ⟨"a", "BTC", 1⟩ rfl
  cases hk'.symm.trans rfl

/-- Clock readings are 64-bit numbers. -/
def ClockFits (_ : Ledger) : Op → Prop
  | .makeCloid ms _ _ _ => ms < 2^64
  | .pruneCloid _ => True

/-- After `n` draws of the counter, registered ids carry counters from `1` to `n`. -/
structure Drawn (n : ℕ) (s : Ledger) : Prop where
  counter : s.maps.cloidCounter = (n + 1) % 2^64
  used : ∀ k rec, s.maps.byCloid k = some rec →
    ∃ ms drawn, ms < 2^64 ∧ 1 ≤ drawn ∧ drawn ≤ n ∧ k = formatCloid ms drawn

lemma Drawn.unregistered {n : ℕ} {s : Ledger} (h : Drawn n s) (hn : n < 2^64) {ms : ℕ}
    (hms : ms < 2^64) : s.maps.byCloid (formatCloid ms s.maps.cloidCounter) = none := by
  by_contra hreg
  obtain ⟨rec, hrec⟩ := Option.ne_none_iff_exists'.mp hreg
  obtain ⟨ms', drawn, hms', hlow, hhigh, hk⟩ := h.used _ rec hrec
  have hc := h.counter
  obtain ⟨_, heq⟩ := formatCloid_inj hms (by omega) hms' (by omega) hk
  omega

lemma Drawn.step {n : ℕ} {s s' : Ledger} {op : Op} (h : Drawn n s) (hn : n + 1 < 2^64)
    (hclock : ClockFits s op) (hs : step s op = some s') : ∃ n' ≤ n + 1, Drawn n' s' := by
  cases op with
  | makeCloid ms c symbol sz =>
    obtain rfl := Option.some.inj hs
    have hc := h.counter
    have hdrawn : s.maps.cloidCounter = n + 1 := by omega
    refine ⟨n + 1, le_rfl, ?_, ?_⟩
    · simp [OrderMaps.makeCloid, register, fetchAdd, hdrawn]
    · intro k rec hrec
      by_cases hk : k = formatCloid ms s.maps.cloidCounter
      · exact ⟨ms, n + 1, hclock, by omega, le_rfl, by rw [hk, hdrawn]⟩
      · simp only [OrderMaps.makeCloid, register_byCloid, fetchAdd_byCloid,
          Function.update_of_ne hk] at hrec
        obtain ⟨ms', drawn, hms', hlow, hhigh, hk'⟩ := h.used k rec hrec
        exact ⟨ms', drawn, hms', hlow, by omega, hk'⟩
  | pruneCloid k =>
    obtain rfl := Option.some.inj hs
    refine ⟨n, by omega, ?_, ?_⟩
    · rw [pruneCloid_cloidCounter]
      exact h.counter
    · intro k' rec hrec
      exact h.used k' rec (pruneCloid_eq_some.mp hrec).2

/-- Before the counter wraps, a generated id is new. -/
theorem generated_unregistered {ops : List Op} {s : Ledger} (h : Run step ClockFits initial ops s)
    (hlen : ops.length < 2^64) {ms : ℕ} (hms : ms < 2^64) :
    s.maps.byCloid (formatCloid ms s.maps.cloidCounter) = none := by
  have hdrawn : ∃ n ≤ ops.length, Drawn n s := by
    clear hms
    induction h with
    | nil => exact ⟨0, le_rfl, by simp [initial, empty], by simp [initial, empty]⟩
    | snoc _ meets next ih =>
      simp only [List.length_append, List.length_singleton] at hlen ⊢
      obtain ⟨n, hn, hd⟩ := ih (by omega)
      obtain ⟨n', hn', hd'⟩ := hd.step (by omega) meets next
      exact ⟨n', by omega, hd'⟩
  obtain ⟨n, hn, hd⟩ := hdrawn
  exact hd.unregistered (by omega) hms

end OrderMaps

end HyperliquidApi
