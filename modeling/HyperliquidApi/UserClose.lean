import HyperliquidApi.SessionMessages

/-!
# Closing a session

`close()` disables reconnects but does not change the generation, so completions that were pending
when it was carried out still reach their handlers. Only the handshake handler looks at
`userClosed`; the three handlers before it start the next operation of the connect chain.
-/
namespace HyperliquidApi.Session
open Timers Runs

variable {Topic : Type*}

def waiting (timer : List (Wait ℕ)) : ℕ := timer.countP fun w => w.status = .waiting

/-- No operation of a connect chain and no wait for a reconnect begins, and the session does not
become connected. -/
structure StartsNothing (s s' : Session Topic) : Prop where
  chain : ∀ p, isChain p = true → s'.pending.count p ≤ s.pending.count p
  reconnect : waiting s'.reconnectTimer ≤ waiting s.reconnectTimer
  connected : s'.connected = true → s.connected = true

/-- The completion is that of an earlier stage of the connect chain, and successful. -/
def ChainGoesOn (s : Session Topic) (p : Pending) (c : Completion) : Prop :=
  p.generation = s.generation ∧ c = .ok ∧
    (p.operation = .resolve ∨ p.operation = .connect ∨ p.operation = .sslHandshake)

instance (s : Session Topic) (p : Pending) (c : Completion) : Decidable (ChainGoesOn s p c) :=
  inferInstanceAs (Decidable (_ ∧ _))

/-- Once closed, a session handles no successful completion of an earlier stage. -/
def ChainHalted (s : Session Topic) : Action Topic → Prop
  | .complete p c _ => s.userClosed = true → ¬ ChainGoesOn s p c
  | _ => True

/-- Once closed, the steps of a session start nothing. -/
def ClosedStartsNothing [DecidableEq Topic] (s : Session Topic) (a : Action Topic) : Prop :=
  s.userClosed = true → ∀ s', step s a = some s' → StartsNothing s s'

lemma StartsNothing.of_eq {s s' : Session Topic}
    (h : (s'.pending, s'.reconnectTimer, s'.connected) = (s.pending, s.reconnectTimer, s.connected)) :
    StartsNothing s s' := by
  simp only [Prod.mk.injEq] at h
  obtain ⟨hpending, htimer, hconnected⟩ := h
  exact ⟨fun _ _ => hpending ▸ le_rfl, htimer ▸ le_rfl, hconnected.symm.trans⟩

lemma StartsNothing.trans {s t s' : Session Topic} (h : StartsNothing s t)
    (h' : StartsNothing t s') : StartsNothing s s' where
  chain p hp := (h'.chain p hp).trans (h.chain p hp)
  reconnect := h'.reconnect.trans h.reconnect
  connected hup := h.connected (h'.connected hup)

lemma begin_startsNothing (s : Session Topic) {operation : Operation} {gen : ℕ}
    (hop : isChain ⟨operation, gen⟩ = false) : StartsNothing s (s.begin operation gen) := by
  refine ⟨?_, le_rfl, id⟩
  intro p hp
  have hne : (⟨operation, gen⟩ : Pending) ≠ p := by
    rintro rfl
    cases hop.symm.trans hp
  simp [begin, hne]

lemma pump_startsNothing (s : Session Topic) : StartsNothing s s.pump := by
  rcases s.pump_cases with heq | ⟨payload, rest, _, _, _, _, heq⟩
  · rw [heq]
    exact .of_eq rfl
  · rw [heq]
    have hbegun : StartsNothing s (s.begin .write s.generation) := begin_startsNothing s rfl
    exact ⟨hbegun.chain, le_rfl, id⟩

lemma flushTopics_startsNothing (s : Session Topic) : StartsNothing s s.flushTopics := by
  unfold flushTopics
  split
  · have hpumped := pump_startsNothing
      { s with
        subscriptions := s.subscriptions ++ s.pendingTopics
        pendingTopics := []
        outboundQueue := s.outboundQueue ++ s.pendingTopics.map .subscribe }
    exact ⟨hpumped.chain, hpumped.reconnect, hpumped.connected⟩
  · exact .of_eq rfl

lemma without_startsNothing (s : Session Topic) (p : Pending) : StartsNothing s (s.without p) :=
  ⟨fun q _ => List.erase_sublist.count_le q, le_rfl, id⟩

section
variable {s : Session Topic} (hclosed : s.userClosed = true)

include hclosed

lemma handleError_closed (gen : ℕ) : s.handleError gen = s := by simp [handleError, hclosed]

lemma onRead_startsNothing (gen : ℕ) (c : Completion) (now : ℕ) :
    StartsNothing s (s.onRead gen c now) := by
  have htouched : StartsNothing s { s with lastActivity := now } := .of_eq rfl
  cases c with
  | failed =>
    rw [onRead, handleError_closed hclosed]
    exact .of_eq rfl
  | malformed =>
    rw [onRead, handleError_closed (s := { s with lastActivity := now }) hclosed]
    exact htouched
  | ok =>
    dsimp only [onRead]
    split
    · exact htouched
    · exact htouched.trans (begin_startsNothing _ rfl)

lemma onWrite_startsNothing (gen : ℕ) (c : Completion) : StartsNothing s (s.onWrite gen c) := by
  have hwritten : StartsNothing s { s with writeInFlight := false } := .of_eq rfl
  dsimp only [onWrite]
  split
  · exact hwritten.trans (pump_startsNothing _)
  · rw [handleError_closed (s := { s with writeInFlight := false }) hclosed]
    exact hwritten

/-- The handler of a completed handshake does look at `userClosed`. -/
lemma onHandshake_startsNothing (gen : ℕ) (c : Completion) (now : ℕ) :
    StartsNothing s (s.onHandshake gen c now) := by
  unfold onHandshake
  split
  · rw [handleError_closed hclosed]
    exact .of_eq rfl
  · exact .of_eq rfl

lemma onCompletion_startsNothing {p : Pending} {c : Completion} {now : ℕ}
    (hhalted : ¬ ChainGoesOn s p c) : StartsNothing s (s.onCompletion p c now) := by
  unfold onCompletion
  split
  · exact .of_eq rfl
  · rename_i hgen
    have hstage : (p.operation = .resolve ∨ p.operation = .connect ∨ p.operation = .sslHandshake) →
        c ≠ .ok := fun hop hc => hhalted ⟨not_not.mp hgen, hc, hop⟩
    split
    · rename_i hop
      rw [onResolve, if_neg (hstage (.inl hop)), handleError_closed hclosed]
      exact .of_eq rfl
    · rename_i hop
      rw [onConnect, if_neg (hstage (.inr (.inl hop))), handleError_closed hclosed]
      exact .of_eq rfl
    · rename_i hop
      rw [onSSLHandshake, if_neg (hstage (.inr (.inr hop))), handleError_closed hclosed]
      exact .of_eq rfl
    · exact onHandshake_startsNothing hclosed _ _ _
    · exact onRead_startsNothing hclosed _ _ _
    · exact onWrite_startsNothing hclosed _ _
    · exact .of_eq rfl

lemma runTask_startsNothing (task : Task Topic) : StartsNothing s (s.runTask task) := by
  cases task with
  | startConnect =>
    rw [runTask, startConnect, if_pos hclosed]
    exact .of_eq rfl
  | flushTopics => exact flushTopics_startsNothing s
  | unsubscribe topic =>
    dsimp only [runTask]
    split
    · have hqueued : StartsNothing s (s.enqueueOp (.unsubscribe topic)) := .of_eq rfl
      exact hqueued.trans (pump_startsNothing _)
    · exact .of_eq rfl
  | closeByUser =>
    rw [runTask, closeByUser, if_pos hclosed]
    exact .of_eq rfl

lemma onReconnectTimer_startsNothing (gen : ℕ) (aborted : Bool) :
    StartsNothing s (s.onReconnectTimer gen aborted) := by
  rcases onReconnectTimer_cases s gen aborted with heq | ⟨_, _, heq⟩ | ⟨_, hopen, _⟩
  · rw [heq]
    exact .of_eq rfl
  · rw [heq]
    exact .of_eq rfl
  · cases hopen.symm.trans hclosed

end

lemma waiting_expire (timer : List (Wait ℕ)) (w : Wait ℕ) :
    waiting (expire w timer) ≤ waiting timer := by
  unfold waiting expire
  rw [List.countP_cons_of_neg (by simp)]
  exact List.erase_sublist.countP_le

/-- A completed stage of the connect chain starts the next one, closed or not. -/
lemma chain_goes_on {s : Session Topic} {p : Pending} {c : Completion} (h : ChainGoesOn s p c)
    (now : ℕ) : ∃ next, isChain next = true ∧ next ≠ p ∧
      ((s.without p).onCompletion p c now).pending = next :: s.pending.erase p := by
  obtain ⟨operation, gen⟩ := p
  obtain ⟨hgen, rfl, hop⟩ := h
  obtain rfl : gen = s.generation := hgen
  rcases hop with rfl | rfl | rfl
  · refine ⟨⟨.connect, s.generation⟩, rfl, by simp, ?_⟩
    simp [onCompletion, onResolve, begin, without]
  · refine ⟨⟨.sslHandshake, s.generation⟩, rfl, by simp, ?_⟩
    simp [onCompletion, onConnect, begin, without]
  · refine ⟨⟨.handshake, s.generation⟩, rfl, by simp, ?_⟩
    simp [onCompletion, onSSLHandshake, begin, without]

section
variable [DecidableEq Topic]

lemma startsNothing_of_halted {s s' : Session Topic} {a : Action Topic}
    (hclosed : s.userClosed = true) (hhalted : ChainHalted s a) (h : Effect s a s') :
    StartsNothing s s' := by
  cases h with
  | @ran task rest htasks =>
    have hdequeued : StartsNothing s { s with tasks := rest } := .of_eq rfl
    exact hdequeued.trans (runTask_startsNothing (s := { s with tasks := rest }) hclosed task)
  | @completed p c now hp =>
    exact (without_startsNothing s p).trans
      (onCompletion_startsNothing (s := s.without p) hclosed (hhalted hclosed))
  | @reconnectExpired w hw hwaiting => exact ⟨fun _ _ => le_rfl, waiting_expire _ w, id⟩
  | @pinged w now hw =>
    have heq : { s with pingTimer := s.pingTimer.erase w }.onPingTimer w.stamp
        (w.status == Status.aborted) now = { s with pingTimer := s.pingTimer.erase w } := by
      simp [onPingTimer, hclosed]
    rw [heq]
    exact .of_eq rfl
  | @reconnected w hw =>
    have herased : StartsNothing s { s with reconnectTimer := s.reconnectTimer.erase w } :=
      ⟨fun _ _ => le_rfl, List.erase_sublist.countP_le, id⟩
    exact herased.trans (onReconnectTimer_startsNothing
      (s := { s with reconnectTimer := s.reconnectTimer.erase w }) hclosed _ _)
  | _ => exact .of_eq rfl

lemma halted_of_startsNothing {s : Session Topic} {a : Action Topic} {s' : Session Topic}
    (hstep : step s a = some s') (h : ClosedStartsNothing s a) : ChainHalted s a := by
  cases a with
  | complete p c now =>
    intro hclosed hgoes
    obtain ⟨next, hchain, hne, hpending⟩ := chain_goes_on hgoes now
    have hnothing := h hclosed s' hstep
    simp only [step] at hstep
    split at hstep
    · obtain rfl := Option.some.inj hstep
      have hle := hnothing.chain next hchain
      rw [show ({ s with pending := s.pending.erase p } : Session Topic) = s.without p from rfl,
        hpending, List.count_cons_self, List.count_erase_of_ne hne] at hle
      omega
    · cases hstep
  | _ => trivial

/-- Every run in which the connect chain is halted by a close starts nothing after it, and the
other way round. -/
theorem close_stops_exactly_when_chain_halted {as : List (Action Topic)} {s : Session Topic} :
    Run step ClosedStartsNothing initial as s ↔ Run step ChainHalted initial as s := by
  constructor
  · intro h
    induction h with
    | nil => exact .nil
    | snoc _ meets next ih => exact ih.snoc (halted_of_startsNothing next meets) next
  · intro h
    induction h with
    | nil => exact .nil
    | snoc _ meets next ih =>
      apply ih.snoc _ next
      intro hclosed s' hstep
      exact startsNothing_of_halted hclosed meets (effect_of_step hstep)

end

/-- The name had been resolved when the session was closed; its handler still starts to connect. -/
theorem close_does_not_stop_resolved : ¬ ∀ (as : List (Action String)) (s s' : Session String)
    (a : Action String), Run step anyStep initial as s → s.userClosed = true →
      step s a = some s' → StartsNothing s s' := by
  intro h
  have hrun : Run step anyStep (initial : Session String)
      [.run, .task, .close, .post .closeByUser, .task] _ := run_of_execute rfl
  have hnothing := h _ _ _ (.complete ⟨.resolve, 1⟩ .ok 0) hrun rfl rfl
  have hle := hnothing.chain ⟨.connect, 1⟩ rfl
  revert hle
  decide

end HyperliquidApi.Session
