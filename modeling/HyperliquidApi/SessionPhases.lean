import HyperliquidApi.Session

/-!
# The phases of an open session

After its first connection attempt an open session is connecting, connected or waiting to
reconnect, and in each of these one completion is due that moves it on. Completions of
torn-down streams still carry the current generation while it waits to reconnect.
-/
namespace HyperliquidApi.Session
open Timers

variable {Topic : Type*}

def isChain (p : Pending) : Bool :=
  match p.operation with
  | .resolve | .connect | .sslHandshake | .handshake => true
  | _ => false

/-- Pending operations of any connect chain. -/
def chains (s : Session Topic) : ℕ := s.pending.countP isChain

def currentChains (s : Session Topic) : ℕ :=
  s.pending.countP fun p => isChain p && p.generation == s.generation

def currentOps (s : Session Topic) : ℕ := s.pending.countP fun p => p.generation == s.generation

def reads (s : Session Topic) : ℕ := s.pending.count ⟨.read, s.generation⟩

/-- No completion is stamped with a later generation. -/
structure Stamped (s : Session Topic) : Prop where
  pending : ∀ p ∈ s.pending, p.generation ≤ s.generation
  pingTimer : ∀ w ∈ s.pingTimer, w.stamp ≤ s.generation
  reconnectTimer : ∀ w ∈ s.reconnectTimer, w.stamp ≤ s.generation

structure Fresh (s : Session Topic) : Prop where
  generation : s.generation = 0
  connected : s.connected = false
  scheduled : s.reconnectScheduled = false
  pending : s.pending = []
  pingTimer : s.pingTimer = []
  reconnectTimer : s.reconnectTimer = []

lemma Fresh.chains {s : Session Topic} (h : Fresh s) : s.chains = 0 := by
  simp [Session.chains, h.pending]

structure Connecting (s : Session Topic) : Prop where
  generation : 1 ≤ s.generation
  connected : s.connected = false
  scheduled : s.reconnectScheduled = false
  chains : chains s = 1
  currentChains : currentChains s = 1
  currentOps : currentOps s = 1
  pings : stamped s.generation s.pingTimer = 0
  reconnects : stamped s.generation s.reconnectTimer = 0

structure Up (s : Session Topic) : Prop where
  generation : 1 ≤ s.generation
  connected : s.connected = true
  scheduled : s.reconnectScheduled = false
  chains : chains s = 0
  reads : reads s = 1
  pings : live s.generation s.pingTimer = 1
  reconnects : stamped s.generation s.reconnectTimer = 0

structure Down (s : Session Topic) : Prop where
  generation : 1 ≤ s.generation
  connected : s.connected = false
  scheduled : s.reconnectScheduled = true
  chains : chains s = 0
  stamped : stamped s.generation s.reconnectTimer = 1
  live : live s.generation s.reconnectTimer = 1

inductive Phase (s : Session Topic) : Prop
  | fresh (h : Fresh s)
  | connecting (h : Connecting s)
  | up (h : Up s)
  | down (h : Down s)

/-- Only outbound messages and their writes differ. -/
structure Steady (s s' : Session Topic) : Prop where
  generation : s'.generation = s.generation
  connected : s'.connected = s.connected
  scheduled : s'.reconnectScheduled = s.reconnectScheduled
  userClosed : s'.userClosed = s.userClosed
  pingTimer : s'.pingTimer = s.pingTimer
  reconnectTimer : s'.reconnectTimer = s.reconnectTimer
  pending : s'.pending = s.pending ∨
    s.connected = true ∧ s'.pending = ⟨.write, s.generation⟩ :: s.pending

lemma Steady.of_eq {s s' : Session Topic}
    (h : (s'.generation, s'.connected, s'.reconnectScheduled, s'.userClosed, s'.pingTimer,
        s'.reconnectTimer, s'.pending) =
      (s.generation, s.connected, s.reconnectScheduled, s.userClosed, s.pingTimer,
        s.reconnectTimer, s.pending)) : Steady s s' := by
  simp only [Prod.mk.injEq] at h
  obtain ⟨hgen, hup, hscheduled, hclosed, hping, hreconnect, hpending⟩ := h
  exact ⟨hgen, hup, hscheduled, hclosed, hping, hreconnect, .inl hpending⟩

lemma pump_steady (s : Session Topic) : Steady s s.pump := by
  rcases s.pump_cases with h | ⟨payload, rest, _, hconnected, _, _, h⟩
  · rw [h]
    exact .of_eq rfl
  · rw [h]
    exact ⟨rfl, rfl, rfl, rfl, rfl, rfl, .inr ⟨hconnected, rfl⟩⟩

lemma flushTopics_steady (s : Session Topic) : Steady s s.flushTopics := by
  unfold flushTopics
  split
  · have h := pump_steady
      { s with
        subscriptions := s.subscriptions ++ s.pendingTopics
        pendingTopics := []
        outboundQueue := s.outboundQueue ++ s.pendingTopics.map .subscribe }
    exact ⟨h.generation, h.connected, h.scheduled, h.userClosed, h.pingTimer, h.reconnectTimer,
      h.pending⟩
  · exact .of_eq rfl

lemma Steady.chains_eq {s s' : Session Topic} (h : Steady s s') : chains s' = chains s := by
  unfold chains
  rcases h.pending with hp | ⟨_, hp⟩ <;> simp [hp, isChain]

lemma Steady.currentChains_eq {s s' : Session Topic} (h : Steady s s') :
    currentChains s' = currentChains s := by
  unfold currentChains
  rw [h.generation]
  rcases h.pending with hp | ⟨_, hp⟩ <;> simp [hp, isChain]

lemma Steady.reads_eq {s s' : Session Topic} (h : Steady s s') : reads s' = reads s := by
  unfold reads
  rw [h.generation]
  rcases h.pending with hp | ⟨_, hp⟩ <;> simp [hp]

lemma Steady.currentOps_eq {s s' : Session Topic} (h : Steady s s') (hc : s.connected = false) :
    currentOps s' = currentOps s := by
  unfold currentOps
  rcases h.pending with hp | ⟨hconnected, _⟩
  · rw [h.generation, hp]
  · simp [hc] at hconnected

lemma Phase.steady {s s' : Session Topic} (h : Phase s) (hs : Steady s s') : Phase s' := by
  cases h with
  | fresh h =>
    have hp : s'.pending = [] := by
      rcases hs.pending with hp | ⟨hconnected, _⟩
      · rw [hp, h.pending]
      · simp [h.connected] at hconnected
    exact .fresh ⟨hs.generation.trans h.generation, hs.connected.trans h.connected,
      hs.scheduled.trans h.scheduled, hp, hs.pingTimer.trans h.pingTimer,
      hs.reconnectTimer.trans h.reconnectTimer⟩
  | connecting h =>
    exact .connecting
      { generation := hs.generation ▸ h.generation
        connected := hs.connected.trans h.connected
        scheduled := hs.scheduled.trans h.scheduled
        chains := hs.chains_eq.trans h.chains
        currentChains := hs.currentChains_eq.trans h.currentChains
        currentOps := (hs.currentOps_eq h.connected).trans h.currentOps
        pings := by rw [hs.generation, hs.pingTimer, h.pings]
        reconnects := by rw [hs.generation, hs.reconnectTimer, h.reconnects] }
  | up h =>
    exact .up
      { generation := hs.generation ▸ h.generation
        connected := hs.connected.trans h.connected
        scheduled := hs.scheduled.trans h.scheduled
        chains := hs.chains_eq.trans h.chains
        reads := hs.reads_eq.trans h.reads
        pings := by rw [hs.generation, hs.pingTimer, h.pings]
        reconnects := by rw [hs.generation, hs.reconnectTimer, h.reconnects] }
  | down h =>
    exact .down
      { generation := hs.generation ▸ h.generation
        connected := hs.connected.trans h.connected
        scheduled := hs.scheduled.trans h.scheduled
        chains := hs.chains_eq.trans h.chains
        stamped := by rw [hs.generation, hs.reconnectTimer, h.stamped]
        live := by rw [hs.generation, hs.reconnectTimer, h.live] }

lemma begin_connecting {s : Session Topic} {operation : Operation}
    (hop : isChain ⟨operation, s.generation⟩ = true) (hgen : 1 ≤ s.generation)
    (hconnected : s.connected = false) (hscheduled : s.reconnectScheduled = false)
    (hchains : chains s = 0) (hops : currentOps s = 0)
    (hpings : stamped s.generation s.pingTimer = 0)
    (hreconnects : stamped s.generation s.reconnectTimer = 0) :
    Connecting (s.begin operation s.generation) := by
  have hcurrent : currentChains s = 0 := by
    have hle : currentChains s ≤ chains s := List.countP_mono_left (by simp +contextual)
    omega
  unfold chains at hchains
  unfold currentChains at hcurrent
  unfold currentOps at hops
  exact
    { generation := hgen
      connected := hconnected
      scheduled := hscheduled
      chains := by simp [chains, begin, hchains, hop]
      currentChains := by simp [currentChains, begin, hcurrent, hop]
      currentOps := by simp [currentOps, begin, hops]
      pings := hpings
      reconnects := hreconnects }

lemma handleError_scheduled {s : Session Topic} (h : s.reconnectScheduled = true) (gen : ℕ) :
    s.handleError gen = s := by simp [handleError, h]

lemma handleError_down {s : Session Topic} (hgen : 1 ≤ s.generation)
    (hopen : s.userClosed = false) (hscheduled : s.reconnectScheduled = false)
    (hchains : chains s = 0) (hreconnects : stamped s.generation s.reconnectTimer = 0) :
    Down (s.handleError s.generation) := by
  have hlive : live s.generation s.reconnectTimer = 0 := by
    have hle := live_le_stamped s.generation s.reconnectTimer
    omega
  have heq : s.handleError s.generation =
      { s with
        reconnectScheduled := true
        connected := false
        connectedFlag := false
        writeInFlight := false
        pingTimer := cancel s.pingTimer
        outboundQueue := []
        pendingTopics := s.subscriptions ++ s.pendingTopics
        subscriptions := []
        reconnectTimer := arm s.generation s.reconnectTimer
        reconnectDelayS := min (s.reconnectDelayS * 2) reconnectDelayMaxS } := by
    simp [handleError, hopen, hscheduled]
  rw [heq]
  exact
    { generation := hgen
      connected := rfl
      scheduled := rfl
      chains := hchains
      stamped := by simp [hreconnects]
      live := live_arm hlive }

lemma begin_read_up {s : Session Topic} (hgen : 1 ≤ s.generation) (hconnected : s.connected = true)
    (hscheduled : s.reconnectScheduled = false) (hchains : chains s = 0) (hreads : reads s = 0)
    (hpings : live s.generation s.pingTimer = 1)
    (hreconnects : stamped s.generation s.reconnectTimer = 0) :
    Up (s.begin .read s.generation) := by
  unfold chains at hchains
  unfold reads at hreads
  exact
    { generation := hgen
      connected := hconnected
      scheduled := hscheduled
      chains := by simp [chains, begin, hchains, isChain]
      reads := by simp [reads, begin, hreads]
      pings := hpings
      reconnects := hreconnects }

/-- The handshake brings the session up with its first read and its ping timer armed. -/
lemma onHandshake_up {s : Session Topic} {now : ℕ} (hgen : 1 ≤ s.generation)
    (hopen : s.userClosed = false) (hscheduled : s.reconnectScheduled = false)
    (hchains : chains s = 0) (hops : currentOps s = 0)
    (hpings : stamped s.generation s.pingTimer = 0)
    (hreconnects : stamped s.generation s.reconnectTimer = 0) :
    Up (s.onHandshake s.generation .ok now) := by
  let s₁ : Session Topic :=
    { s with
      wsOpen := true
      connected := true
      connectedFlag := true
      reconnectDelayS := 1
      lastActivity := now
      pingTimer := arm s.generation s.pingTimer }
  have hreads : reads s₁ = 0 := by
    have hle : reads s₁ ≤ currentOps s := by
      apply List.countP_mono_left
      intro p _ hp
      rw [beq_iff_eq.mp hp]
      simp [s₁]
    omega
  have hlive : live s.generation s.pingTimer = 0 := by
    have hle := live_le_stamped s.generation s.pingTimer
    omega
  have hsteady := flushTopics_steady s₁
  have heq : s.onHandshake s.generation .ok now =
      s₁.flushTopics.begin .read s₁.flushTopics.generation := by
    rw [hsteady.generation]
    simp [onHandshake, hopen, s₁]
  rw [heq]
  apply begin_read_up
  · rw [hsteady.generation]
    exact hgen
  · exact hsteady.connected
  · exact hsteady.scheduled.trans hscheduled
  · exact hsteady.chains_eq.trans hchains
  · exact hsteady.reads_eq.trans hreads
  · rw [hsteady.generation, hsteady.pingTimer]
    exact live_arm hlive
  · rw [hsteady.generation, hsteady.reconnectTimer]
    exact hreconnects

def without (s : Session Topic) (p : Pending) : Session Topic :=
  { s with pending := s.pending.erase p }

section
variable {s : Session Topic} {p : Pending} (hp : p ∈ s.pending)

include hp

lemma chains_without : chains s = chains (s.without p) + if isChain p then 1 else 0 :=
  countP_eq_erase hp isChain

lemma currentChains_without : currentChains s = currentChains (s.without p) +
    if isChain p && p.generation == s.generation then 1 else 0 := countP_eq_erase hp _

lemma currentOps_without : currentOps s = currentOps (s.without p) +
    if p.generation == s.generation then 1 else 0 := countP_eq_erase hp _

lemma reads_without : reads s = reads (s.without p) +
    if p == ⟨.read, s.generation⟩ then 1 else 0 := countP_eq_erase hp _

lemma not_chain (h : chains s = 0) : isChain p = false := by
  rw [← Bool.not_eq_true]
  exact List.countP_eq_zero.mp h p hp

lemma Phase.of_chain (h : Phase s) (hchain : isChain p = true) : Connecting s := by
  have hnone : chains s ≠ 0 := by
    intro hzero
    cases (not_chain hp hzero).symm.trans hchain
  cases h with
  | fresh h => exact absurd h.chains hnone
  | connecting h => exact h
  | up h => exact absurd h.chains hnone
  | down h => exact absurd h.chains hnone

/-- While connecting, the chain's operation is the only one of its generation. -/
lemma Connecting.of_current (h : Connecting s) (hgen : p.generation = s.generation) :
    isChain p = true ∧ (s.without p).chains = 0 ∧ (s.without p).currentOps = 0 := by
  have hops := currentOps_without hp
  have hcurrent := currentChains_without hp
  have hchains := chains_without hp
  have hle : (s.without p).currentChains ≤ (s.without p).currentOps :=
    List.countP_mono_left (by simp +contextual)
  rw [h.currentOps] at hops
  rw [h.currentChains] at hcurrent
  rw [h.chains] at hchains
  simp only [hgen, beq_self_eq_true, Bool.and_true, if_true] at hops hcurrent
  cases hc : isChain p with
  | false =>
    simp only [hc, Bool.false_eq_true, if_false] at hcurrent
    omega
  | true =>
    simp only [hc, if_true] at hchains
    exact ⟨rfl, by omega, by omega⟩

/-- Handlers of earlier generations do nothing. -/
lemma Phase.stale (h : Phase s) (hgen : p.generation ≠ s.generation) : Phase (s.without p) := by
  have hchains := chains_without hp
  have hcurrent := currentChains_without hp
  have hops := currentOps_without hp
  have hreads := reads_without hp
  have hne : (p.generation == s.generation) = false := by simpa using hgen
  have hread : (p == ⟨.read, s.generation⟩) = false := by
    simp only [beq_eq_false_iff_ne, ne_eq]
    intro heq
    exact hgen (congrArg Pending.generation heq)
  simp only [hne, Bool.and_false, Bool.false_eq_true, if_false, Nat.add_zero] at hcurrent hops
  simp only [hread, Bool.false_eq_true, if_false, Nat.add_zero] at hreads
  cases h with
  | fresh h => simp [h.pending] at hp
  | connecting h =>
    have hle : currentChains (s.without p) ≤ chains (s.without p) :=
      List.countP_mono_left (by simp +contextual)
    rw [h.chains] at hchains
    rw [h.currentChains] at hcurrent
    exact .connecting ⟨h.generation, h.connected, h.scheduled, by split at hchains <;> omega,
      hcurrent.symm, hops.symm.trans h.currentOps, h.pings, h.reconnects⟩
  | up h =>
    rw [h.chains] at hchains
    exact .up ⟨h.generation, h.connected, h.scheduled, by omega, hreads.symm.trans h.reads, h.pings,
      h.reconnects⟩
  | down h =>
    rw [h.chains] at hchains
    exact .down ⟨h.generation, h.connected, h.scheduled, by omega, h.stamped, h.live⟩

/-- The connect chain moves on to its next operation, or fails and a reconnect is scheduled. -/
lemma Connecting.complete (h : Connecting s) (hopen : s.userClosed = false)
    (hgen : p.generation = s.generation) (c : Completion) (now : ℕ) :
    Phase ((s.without p).onCompletion p c now) := by
  obtain ⟨hchain, hchains, hops⟩ := h.of_current hp hgen
  have hfail : Phase ((s.without p).handleError s.generation) :=
    .down (handleError_down h.generation hopen h.scheduled hchains h.reconnects)
  have hnext : ∀ operation, isChain ⟨operation, s.generation⟩ = true →
      Phase ((s.without p).begin operation s.generation) := by
    intro operation hop
    exact .connecting (begin_connecting hop h.generation h.connected h.scheduled hchains hops
      h.pings h.reconnects)
  obtain ⟨operation, gen⟩ := p
  obtain rfl : gen = s.generation := hgen
  have hcurrent : (s.without ⟨operation, s.generation⟩).generation = s.generation := rfl
  simp only [onCompletion, hcurrent, ne_eq, not_true_eq_false, if_false]
  cases operation with
  | resolve =>
    dsimp only [onResolve]
    split
    · exact hnext .connect rfl
    · exact hfail
  | connect =>
    dsimp only [onConnect]
    split
    · exact hnext .sslHandshake rfl
    · exact hfail
  | sslHandshake =>
    dsimp only [onSSLHandshake]
    split
    · exact hnext .handshake rfl
    · exact hfail
  | handshake =>
    by_cases hc : c = .ok
    · subst hc
      exact .up (onHandshake_up h.generation hopen h.scheduled hchains hops h.pings h.reconnects)
    · simpa [onHandshake, hc] using hfail
  | read => cases hchain
  | write => cases hchain
  | close => cases hchain

lemma Up.chains_zero (h : Up s) : (s.without p).chains = 0 := by
  have hchains := chains_without hp
  rw [h.chains] at hchains
  omega

/-- A failure of the connection schedules a reconnect. -/
lemma Up.handleError (h : Up s) (hopen : s.userClosed = false) {s' : Session Topic}
    (hs : Steady (s.without p) s') : Phase (s'.handleError s.generation) := by
  rw [show s.generation = s'.generation from hs.generation.symm]
  apply Phase.down
  apply handleError_down
  · rw [hs.generation]
    exact h.generation
  · exact hs.userClosed.trans hopen
  · exact hs.scheduled.trans h.scheduled
  · exact hs.chains_eq.trans (h.chains_zero hp)
  · rw [hs.generation, hs.reconnectTimer]
    exact h.reconnects

/-- Only the read is missed. -/
lemma Up.without (h : Up s) (hne : p ≠ ⟨.read, s.generation⟩) : Up (s.without p) := by
  have hreads := reads_without hp
  rw [h.reads] at hreads
  have hone : (s.without p).reads = 1 := by simpa [hne] using hreads.symm
  exact ⟨h.generation, h.connected, h.scheduled, h.chains_zero hp, hone, h.pings, h.reconnects⟩

lemma Down.without (h : Down s) : Down (s.without p) := by
  have hchains := chains_without hp
  rw [h.chains] at hchains
  exact ⟨h.generation, h.connected, h.scheduled, by omega, h.stamped, h.live⟩

/-- A late completion of a torn-down stream leaves the scheduled reconnect alone. -/
lemma Down.handleError (h : Down s) {s' : Session Topic} (hs : Steady (s.without p) s') (gen : ℕ) :
    Phase (s'.handleError gen) := by
  rw [handleError_scheduled (hs.scheduled.trans h.scheduled)]
  exact (Phase.down (h.without hp)).steady hs

end

section
variable {s : Session Topic} {c : Completion} {now : ℕ}

/-- A read is followed by the next one. -/
lemma Up.onRead (h : Up s) (hopen : s.userClosed = false)
    (hp : ⟨.read, s.generation⟩ ∈ s.pending) :
    Phase ((s.without ⟨.read, s.generation⟩).onRead s.generation c now) := by
  have hreads := reads_without hp
  rw [h.reads] at hreads
  have hnone : (s.without ⟨.read, s.generation⟩).reads = 0 := by simpa using hreads.symm
  have htouched : Steady (s.without ⟨.read, s.generation⟩)
      { s.without ⟨.read, s.generation⟩ with lastActivity := now } := .of_eq rfl
  cases c with
  | failed => exact h.handleError hp hopen (.of_eq rfl)
  | malformed => exact h.handleError hp hopen htouched
  | ok =>
    have hcurrent : (s.without ⟨.read, s.generation⟩).generation = s.generation := rfl
    have hscheduled : (s.without ⟨.read, s.generation⟩).reconnectScheduled = false := h.scheduled
    have hconnected : (s.without ⟨.read, s.generation⟩).connected = true := h.connected
    have hnext : (s.without ⟨.read, s.generation⟩).onRead s.generation .ok now =
        { s.without ⟨.read, s.generation⟩ with lastActivity := now }.begin .read s.generation := by
      simp [Session.onRead, hcurrent, hscheduled, hconnected]
    rw [hnext]
    exact .up (begin_read_up h.generation h.connected h.scheduled (h.chains_zero hp) hnone h.pings
      h.reconnects)

lemma Down.onRead (h : Down s) (hp : ⟨.read, s.generation⟩ ∈ s.pending) :
    Phase ((s.without ⟨.read, s.generation⟩).onRead s.generation c now) := by
  have htouched : Steady (s.without ⟨.read, s.generation⟩)
      { s.without ⟨.read, s.generation⟩ with lastActivity := now } := .of_eq rfl
  cases c with
  | failed => exact h.handleError hp (.of_eq rfl) _
  | malformed => exact h.handleError hp htouched _
  | ok =>
    have hscheduled : (s.without ⟨.read, s.generation⟩).reconnectScheduled = true := h.scheduled
    have hstop : (s.without ⟨.read, s.generation⟩).onRead s.generation .ok now =
        { s.without ⟨.read, s.generation⟩ with lastActivity := now } := by
      simp [Session.onRead, hscheduled]
    rw [hstop]
    exact (Phase.down (h.without hp)).steady htouched

/-- A write is followed by the next one, if any is queued. -/
lemma Up.onWrite (h : Up s) (hopen : s.userClosed = false)
    (hp : ⟨.write, s.generation⟩ ∈ s.pending) :
    Phase ((s.without ⟨.write, s.generation⟩).onWrite s.generation c) := by
  have hwritten : Steady (s.without ⟨.write, s.generation⟩)
      { s.without ⟨.write, s.generation⟩ with writeInFlight := false } := .of_eq rfl
  dsimp only [Session.onWrite]
  split
  · exact ((Phase.up (h.without hp (by simp))).steady hwritten).steady (pump_steady _)
  · exact h.handleError hp hopen hwritten

lemma Down.onWrite (h : Down s) (hp : ⟨.write, s.generation⟩ ∈ s.pending) :
    Phase ((s.without ⟨.write, s.generation⟩).onWrite s.generation c) := by
  have hwritten : Steady (s.without ⟨.write, s.generation⟩)
      { s.without ⟨.write, s.generation⟩ with writeInFlight := false } := .of_eq rfl
  dsimp only [Session.onWrite]
  split
  · exact ((Phase.down (h.without hp)).steady hwritten).steady (pump_steady _)
  · exact h.handleError hp hwritten _

/-- Handlers of the current generation: the connect chain only runs while connecting, reads and
writes complete only after it. -/
lemma Phase.complete_current {operation : Operation} (h : Phase s) (hopen : s.userClosed = false)
    (hp : ⟨operation, s.generation⟩ ∈ s.pending) :
    Phase ((s.without ⟨operation, s.generation⟩).onCompletion ⟨operation, s.generation⟩ c now) := by
  cases h with
  | fresh h => simp [h.pending] at hp
  | connecting h => exact h.complete hp hopen rfl c now
  | up h =>
    have hcurrent : (s.without ⟨operation, s.generation⟩).generation = s.generation := rfl
    have hnochain := not_chain hp h.chains
    simp only [onCompletion, hcurrent, ne_eq, not_true_eq_false, if_false]
    cases operation with
    | read => exact h.onRead hopen hp
    | write => exact h.onWrite hopen hp
    | close => exact .up (h.without hp (by simp))
    | resolve => cases hnochain
    | connect => cases hnochain
    | sslHandshake => cases hnochain
    | handshake => cases hnochain
  | down h =>
    have hcurrent : (s.without ⟨operation, s.generation⟩).generation = s.generation := rfl
    have hnochain := not_chain hp h.chains
    simp only [onCompletion, hcurrent, ne_eq, not_true_eq_false, if_false]
    cases operation with
    | read => exact h.onRead hp
    | write => exact h.onWrite hp
    | close => exact .down (h.without hp)
    | resolve => cases hnochain
    | connect => cases hnochain
    | sslHandshake => cases hnochain
    | handshake => cases hnochain

lemma Phase.complete {p : Pending} (h : Phase s) (hopen : s.userClosed = false)
    (hp : p ∈ s.pending) : Phase ((s.without p).onCompletion p c now) := by
  obtain ⟨operation, gen⟩ := p
  by_cases hgen : gen = s.generation
  · subst hgen
    exact h.complete_current hopen hp
  · have hstale : (s.without ⟨operation, gen⟩).onCompletion ⟨operation, gen⟩ c now =
        s.without ⟨operation, gen⟩ := by
      have hne : gen ≠ (s.without ⟨operation, gen⟩).generation := hgen
      simp [onCompletion, hne]
    rw [hstale]
    exact h.stale hp hgen

end

/-- A ping timer that fires on a connected session is rearmed, unless the stream is silent. -/
lemma ping_phase {s : Session Topic} (hgen : 1 ≤ s.generation) (hopen : s.userClosed = false)
    (hconnected : s.connected = true) (hscheduled : s.reconnectScheduled = false)
    (hchains : chains s = 0) (hreads : reads s = 1) (hpings : live s.generation s.pingTimer = 0)
    (hreconnects : stamped s.generation s.reconnectTimer = 0) (now : ℕ) :
    Phase (s.onPingTimer s.generation false now) := by
  have hsteady : Steady s (s.enqueueOp .ping).pump := by
    have h := pump_steady (s.enqueueOp .ping)
    exact ⟨h.generation, h.connected, h.scheduled, h.userClosed, h.pingTimer, h.reconnectTimer,
      h.pending⟩
  have heq : s.onPingTimer s.generation false now =
      if activityTimeoutS < (now - s.lastActivity) / 1000 then s.handleError s.generation
      else
        { (s.enqueueOp .ping).pump with
          pingTimer := arm s.generation (s.enqueueOp .ping).pump.pingTimer } := by
    simp [onPingTimer, hopen, hconnected]
  rw [heq]
  split
  · exact .down (handleError_down hgen hopen hscheduled hchains hreconnects)
  · apply Phase.up
    constructor
    · exact hsteady.generation ▸ hgen
    · exact hsteady.connected.trans hconnected
    · exact hsteady.scheduled.trans hscheduled
    · exact hsteady.chains_eq.trans hchains
    · exact hsteady.reads_eq.trans hreads
    · dsimp only
      rw [hsteady.generation, hsteady.pingTimer]
      exact live_arm hpings
    · dsimp only
      rw [hsteady.generation, hsteady.reconnectTimer]
      exact hreconnects

lemma ping_disconnected {s : Session Topic} (hopen : s.userClosed = false)
    (hconnected : s.connected = false) (now : ℕ) : s.onPingTimer s.generation false now =
      { s with pingTimer := arm s.generation s.pingTimer } := by
  simp [onPingTimer, hopen, hconnected]

/-- The ping timer stays armed while the session is up; otherwise its handlers change nothing
that matters. -/
lemma Phase.pingHandler {s : Session Topic} {w : Wait ℕ} (h : Phase s) (hopen : s.userClosed = false)
    (hw : w ∈ s.pingTimer) (now : ℕ) :
    Phase ({ s with pingTimer := s.pingTimer.erase w }.onPingTimer w.stamp
      (w.status == Status.aborted) now) := by
  have hstamped := stamped_erase hw s.generation
  have hlive := live_erase hw s.generation
  by_cases hidle : w.status = .aborted ∨ w.stamp ≠ s.generation
  · have hnothing : { s with pingTimer := s.pingTimer.erase w }.onPingTimer w.stamp
        (w.status == Status.aborted) now = { s with pingTimer := s.pingTimer.erase w } := by
      rcases hidle with ha | hne
      · simp [onPingTimer, ha]
      · simp [onPingTimer, hne]
    rw [hnothing]
    cases h with
    | fresh h => simp [h.pingTimer] at hw
    | connecting h =>
      rw [h.pings] at hstamped
      exact .connecting ⟨h.generation, h.connected, h.scheduled, h.chains, h.currentChains,
        h.currentOps, by dsimp only; omega, h.reconnects⟩
    | up h =>
      have hsame : live s.generation (s.pingTimer.erase w) = 1 := by
        rw [h.pings] at hlive
        have hnot : ¬ (w.stamp = s.generation ∧ w.status ≠ .aborted) := by tauto
        rw [if_neg hnot] at hlive
        exact hlive.symm
      exact .up ⟨h.generation, h.connected, h.scheduled, h.chains, h.reads, hsame, h.reconnects⟩
    | down h =>
      exact .down ⟨h.generation, h.connected, h.scheduled, h.chains, h.stamped, h.live⟩
  · obtain ⟨hfired, hcurrent⟩ := not_or.mp hidle
    rw [not_not] at hcurrent
    have haborted : (w.status == Status.aborted) = false := by simpa using hfired
    rw [hcurrent, haborted]
    cases h with
    | fresh h => simp [h.pingTimer] at hw
    | connecting h =>
      rw [h.pings, if_pos hcurrent] at hstamped
      omega
    | up h =>
      have hnone : live s.generation (s.pingTimer.erase w) = 0 := by
        rw [h.pings, if_pos ⟨hcurrent, hfired⟩] at hlive
        omega
      exact ping_phase (s := { s with pingTimer := s.pingTimer.erase w }) h.generation hopen
        h.connected h.scheduled h.chains h.reads hnone h.reconnects now
    | down h =>
      have hrearmed := ping_disconnected (s := { s with pingTimer := s.pingTimer.erase w }) hopen
        h.connected now
      rw [hrearmed]
      exact .down ⟨h.generation, h.connected, h.scheduled, h.chains, h.stamped, h.live⟩

/-- A new attempt is the only chain: nothing pending carries its generation yet. -/
lemma startConnect_connecting {s : Session Topic} (hs : Stamped s) (hopen : s.userClosed = false)
    (hscheduled : s.reconnectScheduled = false) (hchains : chains s = 0) :
    Connecting s.startConnect := by
  have hnew : ∀ timer : List (Wait ℕ), (∀ w ∈ timer, w.stamp ≤ s.generation) →
      stamped (s.generation + 1) timer = 0 := by
    intro timer htimer
    apply List.countP_eq_zero.mpr
    intro w hw
    have hle := htimer w hw
    simp only [decide_eq_true_eq]
    omega
  have hops : s.pending.countP (fun p => p.generation == s.generation + 1) = 0 := by
    apply List.countP_eq_zero.mpr
    intro p hp
    have hle := hs.pending p hp
    simp only [beq_iff_eq]
    omega
  have heq : s.startConnect =
      { s with
        generation := s.generation + 1
        connected := false
        connectedFlag := false
        writeInFlight := false
        wsOpen := false }.begin .resolve (s.generation + 1) := by simp [startConnect, hopen]
  rw [heq]
  exact begin_connecting (s :=
    { s with
      generation := s.generation + 1
      connected := false
      connectedFlag := false
      writeInFlight := false
      wsOpen := false }) rfl (by simp) rfl hscheduled hchains hops (hnew _ hs.pingTimer)
    (hnew _ hs.reconnectTimer)

/-- The wait of the current generation is the one that the scheduled reconnect is waiting for. -/
lemma Phase.reconnect_fires {s : Session Topic} {w : Wait ℕ} (h : Phase s)
    (hw : w ∈ s.reconnectTimer) (hcurrent : w.stamp = s.generation) :
    Down s ∧ w.status ≠ .aborted := by
  have hstamped := stamped_erase hw s.generation
  have hlive := live_erase hw s.generation
  rw [if_pos hcurrent] at hstamped
  cases h with
  | fresh h => simp [h.reconnectTimer] at hw
  | connecting h =>
    rw [h.reconnects] at hstamped
    omega
  | up h =>
    rw [h.reconnects] at hstamped
    omega
  | down h =>
    rw [h.stamped] at hstamped
    have hle := live_le_stamped s.generation (s.reconnectTimer.erase w)
    refine ⟨h, ?_⟩
    intro haborted
    rw [h.live, if_neg (by simp [haborted])] at hlive
    omega

/-- The scheduled reconnect starts the next attempt. -/
lemma Phase.reconnectHandler {s : Session Topic} {w : Wait ℕ} (h : Phase s) (hs : Stamped s)
    (hopen : s.userClosed = false) (hw : w ∈ s.reconnectTimer) :
    Phase ({ s with reconnectTimer := s.reconnectTimer.erase w }.onReconnectTimer w.stamp
      (w.status == Status.aborted)) := by
  have hstamped := stamped_erase hw s.generation
  have hlive := live_erase hw s.generation
  by_cases hcurrent : w.stamp = s.generation
  · obtain ⟨hdown, hfires⟩ := h.reconnect_fires hw hcurrent
    have heq : { s with reconnectTimer := s.reconnectTimer.erase w }.onReconnectTimer w.stamp
        (w.status == Status.aborted) =
        { s with
          reconnectTimer := s.reconnectTimer.erase w
          reconnectScheduled := false }.startConnect := by
      simp [onReconnectTimer, hcurrent, hfires, hopen]
    rw [heq]
    refine .connecting
      (startConnect_connecting ⟨hs.pending, hs.pingTimer, ?_⟩ hopen rfl hdown.chains)
    intro v hv
    exact hs.reconnectTimer v (List.mem_of_mem_erase hv)
  · have hnothing : { s with reconnectTimer := s.reconnectTimer.erase w }.onReconnectTimer w.stamp
        (w.status == Status.aborted) =
        { s with reconnectTimer := s.reconnectTimer.erase w } := by
      simp [onReconnectTimer, hcurrent]
    rw [hnothing]
    rw [if_neg hcurrent, Nat.add_zero] at hstamped
    rw [if_neg (fun hh => hcurrent hh.1), Nat.add_zero] at hlive
    cases h with
    | fresh h => simp [h.reconnectTimer] at hw
    | connecting h =>
      exact .connecting ⟨h.generation, h.connected, h.scheduled, h.chains, h.currentChains,
        h.currentOps, h.pings, hstamped.symm.trans h.reconnects⟩
    | up h =>
      exact .up ⟨h.generation, h.connected, h.scheduled, h.chains, h.reads, h.pings,
        hstamped.symm.trans h.reconnects⟩
    | down h =>
      exact .down ⟨h.generation, h.connected, h.scheduled, h.chains, hstamped.symm.trans h.stamped,
        hlive.symm.trans h.live⟩

end HyperliquidApi.Session
