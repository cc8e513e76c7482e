import HyperliquidApi.ConnectionMessages

/-!
# Exponential backoff

Every teardown doubles the delay of the next one, up to a maximum, and a successful handshake
starts over. What handlers do to the delay and to the time of the last activity is said once, for
the heartbeat as well.
-/
namespace HyperliquidApi.Session
open Timers Runs

variable {Topic : Type*}

/-- The connection neither comes up nor is torn down; at most the last activity is noted. -/
structure Even (now : ℕ) (s s' : Session Topic) : Prop where
  delay : s'.reconnectDelayS = s.reconnectDelayS
  scheduled : s'.reconnectScheduled = true → s.reconnectScheduled = true
  connected : s'.connected = true → s.connected = true
  lastActivity : s'.lastActivity = s.lastActivity ∨ s'.lastActivity = now

/-- The connection is torn down. -/
structure Torn (now : ℕ) (s s' : Session Topic) : Prop where
  scheduled : s.reconnectScheduled = false
  scheduled' : s'.reconnectScheduled = true
  connected' : s'.connected = false
  delay : s'.reconnectDelayS = min (s.reconnectDelayS * 2) reconnectDelayMaxS
  lastActivity : s'.lastActivity = s.lastActivity ∨ s'.lastActivity = now

/-- A handshake succeeds. -/
structure Raised (now : ℕ) (s s' : Session Topic) : Prop where
  connected : s.connected = false
  connected' : s'.connected = true
  delay : s'.reconnectDelayS = 1
  lastActivity : s'.lastActivity = now

inductive Paced (now : ℕ) (s s' : Session Topic) : Prop
  | even (h : Even now s s')
  | torn (h : Torn now s s')
  | raised (h : Raised now s s')

lemma Even.of_eq {now : ℕ} {s s' : Session Topic}
    (h : (s'.reconnectDelayS, s'.reconnectScheduled, s'.connected, s'.lastActivity) =
      (s.reconnectDelayS, s.reconnectScheduled, s.connected, s.lastActivity)) : Even now s s' := by
  simp only [Prod.mk.injEq] at h
  obtain ⟨hdelay, hscheduled, hconnected, hactivity⟩ := h
  exact ⟨hdelay, hscheduled.symm.trans, hconnected.symm.trans, .inl hactivity⟩

lemma Even.trans {now : ℕ} {s t s' : Session Topic} (h : Even now s t) (h' : Even now t s') :
    Even now s s' where
  delay := h'.delay.trans h.delay
  scheduled hs := h.scheduled (h'.scheduled hs)
  connected hs := h.connected (h'.connected hs)
  lastActivity := by
    rcases h'.lastActivity with hsame | hnow
    · rw [hsame]
      exact h.lastActivity
    · exact .inr hnow

/-- What happens after an even step; a connection that is up is not about to come up. -/
lemma Even.then {now : ℕ} {s t s' : Session Topic} (h : Even now s t)
    (hsame : t.reconnectScheduled = s.reconnectScheduled)
    (hup : t.connected = s.connected) (h' : Paced now t s') : Paced now s s' := by
  cases h' with
  | even h' => exact .even (h.trans h')
  | torn h' =>
    refine .torn ⟨hsame ▸ h'.scheduled, h'.scheduled', h'.connected', ?_, ?_⟩
    · rw [h'.delay, h.delay]
    · rcases h'.lastActivity with hkept | hnow
      · rw [hkept]
        exact h.lastActivity
      · exact .inr hnow
  | raised h' => exact .raised ⟨hup ▸ h'.connected, h'.connected', h'.delay, h'.lastActivity⟩

lemma pump_even (now : ℕ) (s : Session Topic) : Even now s s.pump := by
  rcases s.pump_cases with heq | ⟨_, _, _, _, _, _, heq⟩
  · rw [heq]
    exact .of_eq rfl
  · rw [heq]
    exact .of_eq rfl

lemma flushTopics_even (now : ℕ) (s : Session Topic) : Even now s s.flushTopics := by
  unfold flushTopics
  split
  · have hqueued : Even now s
        { s with
          subscriptions := s.subscriptions ++ s.pendingTopics
          pendingTopics := []
          outboundQueue := s.outboundQueue ++ s.pendingTopics.map .subscribe } := .of_eq rfl
    exact hqueued.trans (pump_even now _)
  · exact .of_eq rfl

lemma startConnect_even (now : ℕ) (s : Session Topic) : Even now s s.startConnect := by
  rcases startConnect_cases s with ⟨_, heq⟩ | ⟨_, heq⟩
  · rw [heq]
    exact .of_eq rfl
  · rw [heq]
    exact ⟨rfl, id, fun h => (by cases h), .inl rfl⟩

lemma closeByUser_even (now : ℕ) (s : Session Topic) : Even now s s.closeByUser := by
  rcases closeByUser_cases s with ⟨_, heq⟩ | ⟨_, _, heq⟩
  · rw [heq]
    exact .of_eq rfl
  · rw [heq]
    exact .of_eq rfl

lemma onReconnectTimer_even (now : ℕ) (s : Session Topic) (gen : ℕ) (aborted : Bool) :
    Even now s (s.onReconnectTimer gen aborted) := by
  have hcleared : Even now s { s with reconnectScheduled := false } :=
    ⟨rfl, fun h => (by cases h), id, .inl rfl⟩
  rcases onReconnectTimer_cases s gen aborted with heq | ⟨_, _, heq⟩ | ⟨_, _, heq⟩
  · rw [heq]
    exact .of_eq rfl
  · rw [heq]
    exact hcleared
  · rw [heq]
    exact hcleared.trans (startConnect_even now _)

lemma handleError_paced (now : ℕ) (s : Session Topic) (gen : ℕ) :
    Paced now s (s.handleError gen) := by
  rcases handleError_cases s gen with heq | ⟨_, hscheduled, _, heq⟩
  · rw [heq]
    exact .even (.of_eq rfl)
  · rw [heq]
    exact .torn ⟨hscheduled, rfl, rfl, rfl, .inl rfl⟩

lemma onRead_paced (s : Session Topic) (gen : ℕ) (c : Completion) (now : ℕ) :
    Paced now s (s.onRead gen c now) := by
  have htouched : Even now s { s with lastActivity := now } := ⟨rfl, id, id, .inr rfl⟩
  cases c with
  | failed => exact handleError_paced now s gen
  | malformed => exact htouched.then rfl rfl (handleError_paced now _ gen)
  | ok =>
    dsimp only [onRead]
    split
    · exact .even htouched
    · exact .even (htouched.trans (.of_eq rfl))

lemma onPingTimer_paced (s : Session Topic) (gen : ℕ) (aborted : Bool) (now : ℕ) :
    Paced now s (s.onPingTimer gen aborted now) := by
  unfold onPingTimer
  split
  · exact .even (.of_eq rfl)
  · split
    · exact handleError_paced now s gen
    · have hpinged : Even now s (if s.connected then (s.enqueueOp .ping).pump else s) := by
        split
        · have hqueued : Even now s (s.enqueueOp .ping) := .of_eq rfl
          exact hqueued.trans (pump_even now _)
        · exact .of_eq rfl
      exact .even (hpinged.trans (.of_eq rfl))

lemma onHandshake_paced {s : Session Topic} (hdown : s.userClosed = false → s.connected = false)
    (gen : ℕ) (c : Completion) (now : ℕ) : Paced now s (s.onHandshake gen c now) := by
  unfold onHandshake
  split
  · exact handleError_paced now s gen
  · split
    · exact .even (.of_eq rfl)
    · rename_i hopen
      let s₁ : Session Topic :=
        { s with
          wsOpen := true
          connected := true
          connectedFlag := true
          reconnectDelayS := 1
          lastActivity := now
          pingTimer := arm gen s.pingTimer }
      have hflushed : Even now s₁ (s₁.flushTopics.begin .read gen) :=
        (flushTopics_even now s₁).trans (.of_eq rfl)
      have hup : s₁.flushTopics.connected = true := (flushTopics_up rfl).1
      have hlast : (s₁.flushTopics.begin .read gen).lastActivity = now := by
        rcases hflushed.lastActivity with hsame | hnow
        · exact hsame
        · exact hnow
      exact .raised ⟨hdown (by simpa using hopen), hup, hflushed.delay, hlast⟩

lemma onCompletion_paced {s : Session Topic} {p : Pending} (hs : ProgressInv s)
    (hp : p ∈ s.pending) (c : Completion) (now : ℕ) :
    Paced now s ((s.without p).onCompletion p c now) := by
  have hwithout : Even now s (s.without p) := .of_eq rfl
  obtain ⟨operation, gen⟩ := p
  refine hwithout.then rfl rfl ?_
  unfold onCompletion
  split
  · exact .even (.of_eq rfl)
  · rename_i hgen
    obtain rfl : gen = s.generation := not_not.mp hgen
    cases operation with
    | resolve =>
      dsimp only [onResolve]
      split
      · exact .even (.of_eq rfl)
      · exact handleError_paced now _ _
    | connect =>
      dsimp only [onConnect]
      split
      · exact .even (.of_eq rfl)
      · exact handleError_paced now _ _
    | sslHandshake =>
      dsimp only [onSSLHandshake]
      split
      · exact .even (.of_eq rfl)
      · exact handleError_paced now _ _
    | handshake =>
      apply onHandshake_paced
      intro hopen
      exact ((hs.phase hopen).of_chain hp rfl).connected
    | read => exact onRead_paced _ _ c now
    | write =>
      have hwritten : Even now (s.without ⟨.write, s.generation⟩)
          { s.without ⟨.write, s.generation⟩ with writeInFlight := false } := .of_eq rfl
      dsimp only [onWrite]
      split
      · exact .even (hwritten.trans (pump_even now _))
      · exact hwritten.then rfl rfl (handleError_paced now _ _)
    | close => exact .even (.of_eq rfl)

/-- The time that an action carries is the time it happens at. -/
def At (now : ℕ) : Action Topic → Prop
  | .complete _ _ t | .pingTimer _ t => t = now
  | _ => True

instance (now : ℕ) (a : Action Topic) : Decidable (At now a) :=
  match a with
  | .complete _ _ t => inferInstanceAs (Decidable (t = now))
  | .pingTimer _ t => inferInstanceAs (Decidable (t = now))
  | .run | .subscribe _ | .unsubscribe _ | .close | .post _ | .task | .pingExpires _
  | .reconnectExpires _ | .reconnectTimer _ | .drop => isTrue trivial

lemma exists_at (a : Action Topic) : ∃ now, At now a := by
  cases a with
  | complete p c t => exact ⟨t, rfl⟩
  | pingTimer w t => exact ⟨t, rfl⟩
  | _ => exact ⟨0, trivial⟩

/-- There are no other steps. -/
theorem paced_of_effect [DecidableEq Topic] {now : ℕ} {s s' : Session Topic} {a : Action Topic}
    (hs : ProgressInv s) (hnow : At now a) (h : Effect s a s') : Paced now s s' := by
  cases h with
  | started hrun => exact .even (.of_eq rfl)
  | known htopic => exact .even (.of_eq rfl)
  | added htopic => exact .even (.of_eq rfl)
  | removed htopic => exact .even (.of_eq rfl)
  | dropped htopic => exact .even (.of_eq rfl)
  | closing => exact .even (.of_eq rfl)
  | posted htask => exact .even (.of_eq rfl)
  | @ran task rest htasks =>
    have hdequeued : Even now s { s with tasks := rest } := .of_eq rfl
    cases task with
    | startConnect => exact .even (hdequeued.trans (startConnect_even now _))
    | flushTopics => exact .even (hdequeued.trans (flushTopics_even now _))
    | unsubscribe topic =>
      dsimp only [runTask]
      split
      · have hqueued : Even now s (enqueueOp { s with tasks := rest } (.unsubscribe topic)) := .of_eq rfl
        exact .even (hqueued.trans (pump_even now _))
      · exact .even hdequeued
    | closeByUser => exact .even (hdequeued.trans (closeByUser_even now _))
  | completed hp =>
    obtain rfl := hnow
    exact onCompletion_paced hs hp _ _
  | pingExpired hw hwaiting => exact .even (.of_eq rfl)
  | reconnectExpired hw hwaiting => exact .even (.of_eq rfl)
  | @pinged w t hw =>
    obtain rfl := hnow
    have herased : Even t s { s with pingTimer := s.pingTimer.erase w } := .of_eq rfl
    exact herased.then rfl rfl (onPingTimer_paced _ _ _ _)
  | @reconnected w hw =>
    have herased : Even now s { s with reconnectTimer := s.reconnectTimer.erase w } := .of_eq rfl
    exact .even (herased.trans (onReconnectTimer_even now _ _ _))
  | broken => exact .even (.of_eq rfl)

/-- Keep the delays with which reconnects were scheduled since the last successful handshake. -/
def noteDelay [DecidableEq Topic] (delays : List ℕ) (s : Session Topic) (_ : Action Topic)
    (s' : Session Topic) : List ℕ :=
  if s.connected = false ∧ s'.connected = true then []
  else if s.reconnectScheduled = false ∧ s'.reconnectScheduled = true then
    delays ++ [s.reconnectDelayS]
  else delays

/-- The delay of an attempt after that many failures. -/
def backoff (failures : ℕ) : ℕ := min (2 ^ failures) reconnectDelayMaxS

lemma backoff_succ (n : ℕ) : min (backoff n * 2) reconnectDelayMaxS = backoff (n + 1) := by
  unfold backoff
  rw [pow_succ]
  omega

structure DelayInv (s : Session Topic) (delays : List ℕ) : Prop where
  progress : ProgressInv s
  next : s.reconnectDelayS = backoff delays.length
  past : delays = (List.range delays.length).map backoff

lemma DelayInv.step [DecidableEq Topic] {s s' : Session Topic} {a : Action Topic} {delays : List ℕ}
    (h : DelayInv s delays) (heffect : Effect s a s') :
    DelayInv s' (noteDelay delays s a s') := by
  have hprogress := h.progress.step heffect
  obtain ⟨now, hnow⟩ := exists_at a
  cases paced_of_effect h.progress hnow heffect with
  | even he =>
    have hnote : noteDelay delays s a s' = delays := by
      have hup := he.connected
      have hscheduled := he.scheduled
      unfold noteDelay
      rw [if_neg (by rintro ⟨hdown, hs'⟩; simp [hdown] at hup; simp [hup] at hs'), if_neg]
      rintro ⟨hnot, hs'⟩
      cases hnot.symm.trans (hscheduled hs')
    rw [hnote]
    exact ⟨hprogress, he.delay.trans h.next, h.past⟩
  | torn ht =>
    have hnote : noteDelay delays s a s' = delays ++ [s.reconnectDelayS] := by
      unfold noteDelay
      rw [if_neg (by simp [ht.connected']), if_pos ⟨ht.scheduled, ht.scheduled'⟩]
    rw [hnote]
    refine ⟨hprogress, ?_, ?_⟩
    · rw [ht.delay, h.next, backoff_succ, List.length_append, List.length_singleton]
    · rw [List.length_append, List.length_singleton, List.range_succ, List.map_append, ← h.past,
        h.next]
      rfl
  | raised hr =>
    have hnote : noteDelay delays s a s' = [] := if_pos ⟨hr.connected, hr.connected'⟩
    rw [hnote]
    exact ⟨hprogress, hr.delay, rfl⟩

/-- In every run, the k-th teardown since the last successful handshake schedules the reconnect
after 2^k seconds, or 30 seconds where that is more. -/
theorem reconnect_backs_off [DecidableEq Topic] {as : List (Action Topic)} {s : Session Topic}
    {delays : List ℕ} (h : Run (watched step noteDelay) anyStep (initial, []) as (s, delays)) :
    delays = (List.range delays.length).map (fun k => min (2 ^ k) 30) ∧
      s.reconnectDelayS = min (2 ^ delays.length) 30 := by
  have hinv : DelayInv s delays := by
    apply h.invariant (P := fun t => DelayInv t.1 t.2)
    · exact ⟨progressInv_initial, rfl, rfl⟩
    · rintro ⟨t, l⟩ a ⟨t', l'⟩ hdelay _ hstep
      obtain ⟨hnext, hnote⟩ := watched_eq_some hstep
      dsimp only at hnote ⊢
      rw [hnote]
      exact hdelay.step (effect_of_step hnext)
  exact ⟨hinv.past, hinv.next⟩

/-- Three attempts fail one after the other. -/
theorem reconnect_backs_off_three_times : ∃ (s : Session String) (delays : List ℕ),
    Run (watched step noteDelay) anyStep (initial, []) [.run, .task, .complete ⟨.resolve, 1⟩ .failed 0,
      .reconnectExpires ⟨1, .waiting⟩, .reconnectTimer ⟨1, .fired⟩, .complete ⟨.resolve, 2⟩ .failed 0,
      .reconnectExpires ⟨2, .waiting⟩, .reconnectTimer ⟨2, .fired⟩, .complete ⟨.resolve, 3⟩ .failed 0]
      (s, delays) ∧
    delays = [1, 2, 4] ∧ s.reconnectDelayS = min (2 ^ 3) 30 := by
  have hrun : Run (watched step noteDelay) anyStep ((initial : Session String), [])
      [.run, .task, .complete ⟨.resolve, 1⟩ .failed 0,
      .reconnectExpires ⟨1, .waiting⟩, .reconnectTimer ⟨1, .fired⟩, .complete ⟨.resolve, 2⟩ .failed 0,
      .reconnectExpires ⟨2, .waiting⟩, .reconnectTimer ⟨2, .fired⟩, .complete ⟨.resolve, 3⟩ .failed 0]
      (_, _) := run_of_execute rfl
  exact ⟨_, _, hrun, rfl, (reconnect_backs_off hrun).2⟩

end HyperliquidApi.Session
