import HyperliquidApi.SessionProgress

/-!
# What a step does to the connection and its messages

A handler runs through a few elementary changes: it queues messages, hands one to the stream,
tears the connection down, and so on. Each says under which conditions it occurs, so an invariant
is shown for one change at a time.
-/
namespace HyperliquidApi.Session
open Timers Runs

variable {Topic : Type*}

/-- Topics, messages and connection flags stay, and no write begins or ends. -/
structure Calm (s s' : Session Topic) : Prop where
  outboundQueue : s'.outboundQueue = s.outboundQueue
  writeInFlight : s'.writeInFlight = s.writeInFlight
  subscriptions : s'.subscriptions = s.subscriptions
  pendingTopics : s'.pendingTopics = s.pendingTopics
  generation : s'.generation = s.generation
  connected : s'.connected = s.connected
  connectedFlag : s'.connectedFlag = s.connectedFlag
  scheduled : s'.reconnectScheduled = s.reconnectScheduled ∨ s.userClosed = true
  userClosed : s'.userClosed = s.userClosed
  wire : s'.wire = s.wire
  writes : ∀ gen, s'.pending.count ⟨.write, gen⟩ = s.pending.count ⟨.write, gen⟩

lemma Calm.of_eq {s s' : Session Topic}
    (h : (s'.outboundQueue, s'.writeInFlight, s'.subscriptions, s'.pendingTopics, s'.generation,
        s'.connected, s'.connectedFlag, s'.reconnectScheduled, s'.userClosed, s'.wire, s'.pending) =
      (s.outboundQueue, s.writeInFlight, s.subscriptions, s.pendingTopics, s.generation,
        s.connected, s.connectedFlag, s.reconnectScheduled, s.userClosed, s.wire, s.pending)) :
    Calm s s' := by
  simp only [Prod.mk.injEq] at h
  obtain ⟨hqueue, hwrite, hsubs, htopics, hgen, hup, hflag, hscheduled, hclosed, hwire, hpending⟩ := h
  refine ⟨hqueue, hwrite, hsubs, htopics, hgen, hup, hflag, .inl hscheduled, hclosed, hwire, ?_⟩
  intro gen
  rw [hpending]

/-- An elementary change, with the messages it queues. -/
inductive Change (s : Session Topic) : List (Message Topic) → Session Topic → Prop
  | calm {s' : Session Topic} (h : Calm s s') : Change s [] s'
  | flushed (hup : s.connected = true) : Change s (s.pendingTopics.map .subscribe)
      { s with
        subscriptions := s.subscriptions ++ s.pendingTopics
        pendingTopics := []
        outboundQueue := s.outboundQueue ++ s.pendingTopics.map .subscribe }
  | enqueued (payload : Message Topic) (hup : s.connected = true) :
      Change s [payload] (s.enqueueOp payload)
  | handed {payload : Message Topic} {rest : List (Message Topic)} (hidle : s.writeInFlight = false)
      (hup : s.connected = true) (hqueue : s.outboundQueue = payload :: rest) : Change s []
      { s with
        outboundQueue := rest
        writeInFlight := true
        pending := ⟨.write, s.generation⟩ :: s.pending
        wire := s.wire ++ [(s.generation, payload)] }
  | wrote (hwrite : ⟨.write, s.generation⟩ ∈ s.pending) : Change s []
      { s with
        pending := s.pending.erase ⟨.write, s.generation⟩
        writeInFlight := false }
  | late {gen : ℕ} (hgen : gen ≠ s.generation) : Change s []
      { s with pending := s.pending.erase ⟨.write, gen⟩ }
  | tornDown (hscheduled : s.reconnectScheduled = false) (hopen : s.userClosed = false)
      (pingTimer reconnectTimer : List (Wait ℕ)) (reconnectDelayS : ℕ) : Change s []
      { s with
        reconnectScheduled := true
        connected := false
        connectedFlag := false
        writeInFlight := false
        pingTimer := pingTimer
        outboundQueue := []
        pendingTopics := s.subscriptions ++ s.pendingTopics
        subscriptions := []
        reconnectTimer := reconnectTimer
        reconnectDelayS := reconnectDelayS }
  | restarted (hdown : s.connected = false) (hopen : s.userClosed = false)
      (hstamped : ∀ p ∈ s.pending, p.generation ≤ s.generation) (scheduled : Bool) : Change s []
      { s with
        reconnectScheduled := scheduled
        generation := s.generation + 1
        connected := false
        connectedFlag := false
        writeInFlight := false
        wsOpen := false
        pending := ⟨.resolve, s.generation + 1⟩ :: s.pending }

/-- Messages with the connection they are meant for. -/
def tagged (s : Session Topic) (out : List (Message Topic)) : List (ℕ × Message Topic) :=
  out.map fun message => (s.generation, message)

@[simp] lemma map_snd_tagged (s : Session Topic) (out : List (Message Topic)) :
    (tagged s out).map Prod.snd = out := by
  simp [tagged, Function.comp_def]

/-- Changes one after the other, with all the messages they queue. -/
inductive Changes (s : Session Topic) : List (ℕ × Message Topic) → Session Topic → Prop
  | none : Changes s [] s
  | more {out : List (ℕ × Message Topic)} {out' : List (Message Topic)} {t s' : Session Topic}
      (first : Changes s out t) (next : Change t out' s') : Changes s (out ++ tagged t out') s'

lemma Change.changes {s s' : Session Topic} {out : List (Message Topic)} (h : Change s out s') :
    Changes s (tagged s out) s' := by
  simpa using Changes.none.more h

lemma Changes.trans {s t s' : Session Topic} {out out' : List (ℕ × Message Topic)}
    (h : Changes s out t) (h' : Changes t out' s') : Changes s (out ++ out') s' := by
  induction h' with
  | none => simpa using h
  | more _ next ih =>
    rw [← List.append_assoc]
    exact ih.more next

/-- Changes that queue nothing come before or after. -/
lemma Changes.then {s t s' : Session Topic} {out : List (ℕ × Message Topic)} (h : Changes s out t)
    (h' : Changes t [] s') : Changes s out s' := by
  simpa using h.trans h'

lemma Changes.after {s t s' : Session Topic} {out : List (ℕ × Message Topic)} (h : Changes s [] t)
    (h' : Changes t out s') : Changes s out s' := h.trans h'

lemma Calm.changes {s s' : Session Topic} (h : Calm s s') : Changes s [] s' :=
  (Change.calm h).changes

/-- What every change keeps is kept by all of them. -/
lemma Changes.keep {s s' : Session Topic} {out : List (ℕ × Message Topic)} {P : Session Topic → Prop}
    (h : Changes s out s') (hs : P s) (step : ∀ t out t', P t → Change t out t' → P t') : P s' := by
  induction h with
  | none => exact hs
  | more _ next ih => exact step _ _ _ ih next

lemma pump_changes (s : Session Topic) : Changes s [] s.pump := by
  rcases s.pump_cases with heq | ⟨payload, rest, hidle, hup, _, hqueue, heq⟩
  · rw [heq]
    exact .none
  · rw [heq]
    exact (Change.handed hidle hup hqueue).changes

lemma flushTopics_changes {s : Session Topic} (hup : s.connected = true) :
    Changes s (tagged s (s.pendingTopics.map .subscribe)) s.flushTopics := by
  have heq : s.flushTopics = pump
      { s with
        subscriptions := s.subscriptions ++ s.pendingTopics
        pendingTopics := []
        outboundQueue := s.outboundQueue ++ s.pendingTopics.map .subscribe } := by
    simp [flushTopics, hup]
  rw [heq]
  exact (Change.flushed hup).changes.then (pump_changes _)

lemma handleError_changes (s : Session Topic) (gen : ℕ) : Changes s [] (s.handleError gen) := by
  rcases handleError_cases s gen with heq | ⟨_, hscheduled, hopen, heq⟩
  · rw [heq]
    exact .none
  · rw [heq]
    exact (Change.tornDown hscheduled hopen _ _ _).changes

/-- A new connection is only started while there is none. -/
lemma startConnect_changes {s : Session Topic} (hdown : s.connected = false)
    (hstamped : ∀ p ∈ s.pending, p.generation ≤ s.generation) (scheduled : Bool)
    (hopen : s.userClosed = false) :
    Changes s [] { s with reconnectScheduled := scheduled }.startConnect := by
  rcases startConnect_cases { s with reconnectScheduled := scheduled } with ⟨hclosed, _⟩ | ⟨_, heq⟩
  · cases hopen.symm.trans hclosed
  · rw [heq]
    exact (Change.restarted hdown hopen hstamped scheduled).changes

lemma begin_calm (s : Session Topic) (operation : Operation) (hop : operation ≠ .write) (gen : ℕ) :
    Calm s (s.begin operation gen) := by
  refine ⟨rfl, rfl, rfl, rfl, rfl, rfl, rfl, .inl rfl, rfl, rfl, ?_⟩
  intro g
  have hne : (⟨operation, gen⟩ : Pending) ≠ ⟨.write, g⟩ := by
    intro h
    exact hop (congrArg Pending.operation h)
  simp [begin, hne]

lemma begin_changes (s : Session Topic) {operation : Operation} (hop : operation ≠ .write)
    (gen : ℕ) : Changes s [] (s.begin operation gen) := (begin_calm s _ hop gen).changes

lemma closeByUser_calm {s : Session Topic} (hopen : s.userClosed = false) :
    Calm { s with userClosed := true } s.closeByUser := by
  simp only [closeByUser, hopen, Bool.false_eq_true, if_false]
  split
  · have hbegun := begin_calm
      { s with
        userClosed := true
        pingTimer := cancel s.pingTimer
        reconnectTimer := cancel s.reconnectTimer } .close (by simp) s.generation
    exact ⟨rfl, rfl, rfl, rfl, rfl, rfl, rfl, .inl rfl, rfl, rfl, hbegun.writes⟩
  · exact .of_eq rfl

lemma onRead_changes (s : Session Topic) (gen : ℕ) (c : Completion) (now : ℕ) :
    Changes s [] (s.onRead gen c now) := by
  have htouched : Changes s [] { s with lastActivity := now } := Calm.changes (.of_eq rfl)
  cases c with
  | failed => exact handleError_changes s gen
  | malformed => exact htouched.then (handleError_changes _ gen)
  | ok =>
    dsimp only [onRead]
    split
    · exact htouched
    · exact htouched.then (begin_changes _ (by simp) gen)

/-- Whether a ping is sent: on a connection that is not silent. -/
def Pings (s : Session Topic) (gen : ℕ) (aborted : Bool) (now : ℕ) : Prop :=
  ¬ (aborted = true ∨ gen ≠ s.generation ∨ s.userClosed = true) ∧ s.connected = true ∧
    ¬ activityTimeoutS < (now - s.lastActivity) / 1000

instance (s : Session Topic) (gen : ℕ) (aborted : Bool) (now : ℕ) :
    Decidable (Pings s gen aborted now) := inferInstanceAs (Decidable (_ ∧ _))

lemma onPingTimer_changes (s : Session Topic) (gen : ℕ) (aborted : Bool) (now : ℕ) :
    Changes s (tagged s (if Pings s gen aborted now then [.ping] else []))
      (s.onPingTimer gen aborted now) := by
  unfold onPingTimer
  by_cases hstale : aborted = true ∨ gen ≠ s.generation ∨ s.userClosed = true
  · rw [if_neg (fun h => h.1 hstale), if_pos hstale]
    exact .none
  · by_cases hup : s.connected = true
    · by_cases hsilent : activityTimeoutS < (now - s.lastActivity) / 1000
      · rw [if_neg (fun h => h.2.2 hsilent), if_neg hstale, if_pos ⟨hup, hsilent⟩]
        exact handleError_changes s gen
      · rw [if_pos ⟨hstale, hup, hsilent⟩, if_neg hstale, if_neg (fun h => hsilent h.2), if_pos hup]
        have hpinged := (Change.enqueued .ping hup).changes.then (pump_changes _)
        exact hpinged.then (Calm.changes (.of_eq rfl))
    · rw [if_neg (fun h => hup h.2.1), if_neg hstale, if_neg (fun h => hup h.1), if_neg hup]
      exact Calm.changes (.of_eq rfl)

/-- What a step queues: the topics flushed by a task or by a handshake, an unsubscribe, a ping. -/
def enqueues (s : Session Topic) : Action Topic → List (Message Topic)
  | .task =>
    match s.tasks with
    | .flushTopics :: _ => if s.connected then s.pendingTopics.map .subscribe else []
    | .unsubscribe topic :: _ => if s.connected then [.unsubscribe topic] else []
    | _ => []
  | .complete p c _ =>
    if p = ⟨.handshake, s.generation⟩ ∧ c = .ok ∧ s.userClosed = false then
      s.pendingTopics.map .subscribe
    else []
  | .pingTimer w now => if Pings s w.stamp (w.status == .aborted) now then [.ping] else []
  | _ => []

lemma without_calm (s : Session Topic) {p : Pending} (hop : p.operation ≠ .write) :
    Calm s (s.without p) := by
  refine ⟨rfl, rfl, rfl, rfl, rfl, rfl, rfl, .inl rfl, rfl, rfl, ?_⟩
  intro gen
  apply List.count_erase_of_ne
  intro h
  exact hop (congrArg Pending.operation h.symm)

/-- The connect chain has no writes beside it. -/
lemma Connecting.no_writes {s : Session Topic} (h : Connecting s)
    (hp : ⟨.handshake, s.generation⟩ ∈ s.pending) :
    (s.without ⟨.handshake, s.generation⟩).pending.count ⟨.write, s.generation⟩ = 0 := by
  obtain ⟨_, _, hops⟩ := h.of_current hp rfl
  apply Nat.eq_zero_of_le_zero
  rw [← hops]
  apply List.countP_mono_left
  intro q _ hq
  rw [beq_iff_eq.mp hq]
  simp [without]

/-- The state in which a handshake leaves the session before topics are flushed. -/
def cameUp (s : Session Topic) (now : ℕ) : Session Topic :=
  { s.without ⟨.handshake, s.generation⟩ with
    wsOpen := true
    connected := true
    connectedFlag := true
    reconnectDelayS := 1
    lastActivity := now
    pingTimer := arm s.generation s.pingTimer }

/-- A handshake that does not connect the session. -/
lemma failedHandshake_changes (s : Session Topic) {c : Completion} {now : ℕ}
    (h : ¬ (c = .ok ∧ s.userClosed = false)) :
    Changes s [] ((s.without ⟨.handshake, s.generation⟩).onHandshake s.generation c now) := by
  have hwithout : Changes s [] (s.without ⟨.handshake, s.generation⟩) :=
    (without_calm s (by simp)).changes
  unfold onHandshake
  split
  · exact hwithout.then (handleError_changes _ _)
  · rename_i hc
    have hclosed : (s.without ⟨.handshake, s.generation⟩).userClosed = true := by
      by_contra hopen
      exact h ⟨not_not.mp hc, by simpa [without] using hopen⟩
    rw [if_pos hclosed]
    exact hwithout.then (Calm.changes (.of_eq rfl))

lemma handshake_up {s : Session Topic} (hopen : s.userClosed = false) (now : ℕ) :
    (s.without ⟨.handshake, s.generation⟩).onCompletion ⟨.handshake, s.generation⟩ .ok now =
      (cameUp s now).flushTopics.begin .read s.generation := by
  simp [onCompletion, onHandshake, without, hopen, cameUp]

lemma handshake_changes {s : Session Topic} (hopen : s.userClosed = false) (now : ℕ) :
    Changes (cameUp s now) (tagged s (s.pendingTopics.map .subscribe))
      ((s.without ⟨.handshake, s.generation⟩).onCompletion ⟨.handshake, s.generation⟩ .ok now) := by
  have hflushed : Changes (cameUp s now) (tagged s (s.pendingTopics.map .subscribe))
      (cameUp s now).flushTopics := flushTopics_changes rfl
  rw [handshake_up hopen]
  exact hflushed.then (begin_changes _ (by simp) _)

lemma completeWrite_changes {s : Session Topic} (hp : ⟨.write, s.generation⟩ ∈ s.pending)
    (c : Completion) :
    Changes s [] ((s.without ⟨.write, s.generation⟩).onWrite s.generation c) := by
  have hwrote := (Change.wrote hp).changes
  dsimp only [onWrite]
  split
  · exact hwrote.then (pump_changes _)
  · exact hwrote.then (handleError_changes _ _)

lemma onCompletion_changes {s : Session Topic} {p : Pending} (hp : p ∈ s.pending) {c : Completion}
    {now : ℕ} (h : ¬ (p = ⟨.handshake, s.generation⟩ ∧ c = .ok ∧ s.userClosed = false)) :
    Changes s [] ((s.without p).onCompletion p c now) := by
  obtain ⟨operation, gen⟩ := p
  by_cases hgen : gen = s.generation
  · subst hgen
    have hcurrent : (s.without ⟨operation, s.generation⟩).generation = s.generation := rfl
    simp only [onCompletion, hcurrent, ne_eq, not_true_eq_false, if_false]
    have hwithout : operation ≠ .write → Changes s [] (s.without ⟨operation, s.generation⟩) :=
      fun hne => (without_calm s hne).changes
    cases operation with
    | resolve =>
      dsimp only [onResolve]
      split
      · exact (hwithout (by simp)).then (begin_changes _ (by simp) _)
      · exact (hwithout (by simp)).then (handleError_changes _ _)
    | connect =>
      dsimp only [onConnect]
      split
      · exact (hwithout (by simp)).then (begin_changes _ (by simp) _)
      · exact (hwithout (by simp)).then (handleError_changes _ _)
    | sslHandshake =>
      dsimp only [onSSLHandshake]
      split
      · exact (hwithout (by simp)).then (begin_changes _ (by simp) _)
      · exact (hwithout (by simp)).then (handleError_changes _ _)
    | handshake => exact failedHandshake_changes s (fun hc => h ⟨rfl, hc⟩)
    | read => exact (hwithout (by simp)).then (onRead_changes _ _ c now)
    | write => exact completeWrite_changes hp c
    | close => exact hwithout (by simp)
  · have heq : (s.without ⟨operation, gen⟩).onCompletion ⟨operation, gen⟩ c now =
        s.without ⟨operation, gen⟩ := if_pos hgen
    rw [heq]
    by_cases hwrite : operation = .write
    · subst hwrite
      exact (Change.late hgen).changes
    · exact (without_calm s hwrite).changes

lemma reconnectHandler_changes {s : Session Topic} {w : Wait ℕ} (hs : ProgressInv s)
    (hw : w ∈ s.reconnectTimer) :
    Changes s [] ({ s with reconnectTimer := s.reconnectTimer.erase w }.onReconnectTimer w.stamp
      (w.status == Status.aborted)) := by
  rcases hs.reconnectHandler_cases hw with heq | ⟨hclosed, heq⟩ | ⟨hopen, hdown, heq⟩
  · rw [heq]
    exact Calm.changes (.of_eq rfl)
  · rw [heq]
    exact Calm.changes ⟨rfl, rfl, rfl, rfl, rfl, rfl, rfl, .inr hclosed, rfl, rfl, fun _ => rfl⟩
  · rw [heq]
    have herased : Changes s [] { s with reconnectTimer := s.reconnectTimer.erase w } :=
      Calm.changes (.of_eq rfl)
    have hstarted := startConnect_changes (s := { s with reconnectTimer := s.reconnectTimer.erase w })
      hdown.connected hs.stamped.pending false hopen
    exact herased.then hstarted

lemma runStart_changes {s : Session Topic} {rest : List (Task Topic)} (hs : ProgressInv s)
    (htasks : s.tasks = .startConnect :: rest) :
    Changes s [] { s with tasks := rest }.startConnect := by
  have hdequeued : Changes s [] { s with tasks := rest } := Calm.changes (.of_eq rfl)
  rcases startConnect_cases { s with tasks := rest } with ⟨_, heq⟩ | ⟨hopen, _⟩
  · rw [heq]
    exact hdequeued
  · have hfresh := (hs.phase hopen).fresh_of_zero (hs.startsOnce.first htasks).1
    have hstarted := startConnect_changes (s := { s with tasks := rest }) hfresh.connected
      hs.stamped.pending s.reconnectScheduled hopen
    exact hdequeued.then hstarted

lemma runFlush_changes (s : Session Topic) (rest : List (Task Topic)) :
    Changes s (tagged s (if s.connected then s.pendingTopics.map .subscribe else []))
      { s with tasks := rest }.flushTopics := by
  have hdequeued : Changes s [] { s with tasks := rest } := Calm.changes (.of_eq rfl)
  by_cases hup : s.connected = true
  · rw [if_pos hup]
    exact hdequeued.after (flushTopics_changes (s := { s with tasks := rest }) hup)
  · have heq : flushTopics { s with tasks := rest } = { s with tasks := rest } := if_neg hup
    rw [if_neg hup, heq]
    exact hdequeued

lemma runUnsubscribe_changes (s : Session Topic) (topic : Topic) (rest : List (Task Topic)) :
    Changes s (tagged s (if s.connected then [.unsubscribe topic] else []))
      ({ s with tasks := rest }.runTask (.unsubscribe topic)) := by
  have hdequeued : Changes s [] { s with tasks := rest } := Calm.changes (.of_eq rfl)
  dsimp only [runTask]
  by_cases hup : s.connected = true
  · rw [if_pos hup, if_pos hup]
    have hqueued := (Change.enqueued (s := { s with tasks := rest }) (.unsubscribe topic) hup).changes
    exact hdequeued.after (hqueued.then (pump_changes _))
  · rw [if_neg hup, if_neg hup]
    exact hdequeued

/-- The topics asked for, in the order in which they are subscribed on the next connection. -/
def topics (s : Session Topic) : List Topic := s.subscriptions ++ s.pendingTopics

section
variable [DecidableEq Topic]

/-- What an action asks for. -/
def call (topics : List Topic) : Action Topic → List Topic
  | .subscribe topic => if topic ∈ topics then topics else topics ++ [topic]
  | .unsubscribe topic => topics.filter (· ≠ topic)
  | _ => topics

/-- A step is a call that changes the topics asked for, the close of an open session, a handshake
that connects it, or a sequence of changes. -/
inductive Stepped (s : Session Topic) : Action Topic → Session Topic → Prop
  | called {a : Action Topic} (hcall : ∃ topic, a = .subscribe topic ∨ a = .unsubscribe topic)
      {subscriptions pendingTopics : List Topic} {posts : List (Task Topic)}
      (hnil : s.subscriptions = [] → subscriptions = [])
      (htopics : s.topics.Nodup → subscriptions ++ pendingTopics = call s.topics a) :
      Stepped s a
        { s with
          subscriptions := subscriptions
          pendingTopics := pendingTopics
          posts := posts }
  | closed {rest : List (Task Topic)} {s' : Session Topic} (htasks : s.tasks = .closeByUser :: rest)
      (hopen : s.userClosed = false) (h : Calm { s with userClosed := true } s') :
      Stepped s .task s'
  | connected {now : ℕ} {s' : Session Topic} (hp : ⟨.handshake, s.generation⟩ ∈ s.pending)
      (hopen : s.userClosed = false)
      (h : Changes (cameUp s now) (tagged s (s.pendingTopics.map .subscribe)) s') :
      Stepped s (.complete ⟨.handshake, s.generation⟩ .ok now) s'
  | changed {a : Action Topic} {s' : Session Topic} (hsame : call s.topics a = s.topics)
      (h : Changes s (tagged s (enqueues s a)) s') : Stepped s a s'

lemma filter_topics {subscriptions : List Topic} (pendingTopics : List Topic) (topic : Topic)
    (h : subscriptions.Nodup) :
    subscriptions.erase topic ++ pendingTopics.filter (· ≠ topic) =
      (subscriptions ++ pendingTopics).filter (· ≠ topic) := by
  rw [List.filter_append, h.erase_eq_filter]
  congr 1
  apply List.filter_congr
  intro other _
  simp [bne, beq_eq_decide]

lemma runTask_stepped {s : Session Topic} {task : Task Topic} {rest : List (Task Topic)}
    (hs : ProgressInv s) (htasks : s.tasks = task :: rest) :
    Stepped s .task ({ s with tasks := rest }.runTask task) := by
  cases task with
  | startConnect =>
    have henqueues : enqueues s .task = [] := by rw [enqueues, htasks]
    apply Stepped.changed rfl
    rw [henqueues]
    exact runStart_changes hs htasks
  | flushTopics =>
    have henqueues : enqueues s .task = if s.connected then s.pendingTopics.map .subscribe else [] := by
      rw [enqueues, htasks]
    apply Stepped.changed rfl
    rw [henqueues]
    exact runFlush_changes s rest
  | unsubscribe topic =>
    have henqueues : enqueues s .task = if s.connected then [.unsubscribe topic] else [] := by
      rw [enqueues, htasks]
    apply Stepped.changed rfl
    rw [henqueues]
    exact runUnsubscribe_changes s topic rest
  | closeByUser =>
    by_cases hopen : s.userClosed = false
    · have hcalm := closeByUser_calm (s := { s with tasks := rest }) hopen
      refine .closed htasks hopen ⟨hcalm.outboundQueue, hcalm.writeInFlight, hcalm.subscriptions,
        hcalm.pendingTopics, hcalm.generation, hcalm.connected, hcalm.connectedFlag, hcalm.scheduled,
        hcalm.userClosed, hcalm.wire, hcalm.writes⟩
    · have henqueues : enqueues s .task = [] := by rw [enqueues, htasks]
      have heq : { s with tasks := rest }.runTask .closeByUser = { s with tasks := rest } := by
        simp [runTask, closeByUser, hopen]
      apply Stepped.changed rfl
      rw [henqueues, heq]
      exact Calm.changes (.of_eq rfl)

lemma onCompletion_stepped {s : Session Topic} {p : Pending} (hp : p ∈ s.pending) (c : Completion)
    (now : ℕ) : Stepped s (.complete p c now) ((s.without p).onCompletion p c now) := by
  by_cases hup : p = ⟨.handshake, s.generation⟩ ∧ c = .ok ∧ s.userClosed = false
  · obtain ⟨rfl, rfl, hopen⟩ := hup
    exact .connected hp hopen (handshake_changes hopen now)
  · have henqueues : enqueues s (.complete p c now) = [] := if_neg hup
    apply Stepped.changed rfl
    rw [henqueues]
    exact onCompletion_changes hp hup

/-- There are no other steps. -/
theorem stepped_of_effect {s s' : Session Topic} {a : Action Topic} (hs : ProgressInv s)
    (h : Effect s a s') : Stepped s a s' := by
  cases h with
  | started hrun => exact .changed rfl (Calm.changes (.of_eq rfl))
  | @known topic htopic =>
    have hmem : topic ∈ s.topics := List.mem_append.mpr htopic
    exact .changed (if_pos hmem) (Calm.changes (.of_eq rfl))
  | @added topic htopic =>
    apply Stepped.called ⟨topic, .inl rfl⟩ id
    intro _
    have hmem : topic ∉ s.topics := fun h => htopic (List.mem_append.mp h)
    rw [call, if_neg hmem, ← List.append_assoc]
    rfl
  | @removed topic htopic =>
    apply Stepped.called ⟨topic, .inr rfl⟩
    · intro hnil
      simp [hnil] at htopic
    · intro hnodup
      exact filter_topics _ _ (List.nodup_append.mp hnodup).1
  | @dropped topic htopic =>
    apply Stepped.called ⟨topic, .inr rfl⟩ id
    intro hnodup
    have hfilter := filter_topics s.pendingTopics topic (List.nodup_append.mp hnodup).1
    rwa [List.erase_of_not_mem htopic] at hfilter
  | closing => exact .changed rfl (Calm.changes (.of_eq rfl))
  | posted htask => exact .changed rfl (Calm.changes (.of_eq rfl))
  | ran htasks => exact runTask_stepped hs htasks
  | completed hp => exact onCompletion_stepped hp _ _
  | pingExpired hw hwaiting => exact .changed rfl (Calm.changes (.of_eq rfl))
  | reconnectExpired hw hwaiting => exact .changed rfl (Calm.changes (.of_eq rfl))
  | @pinged w now hw =>
    have herased : Changes s [] { s with pingTimer := s.pingTimer.erase w } := Calm.changes (.of_eq rfl)
    exact .changed rfl (herased.after (onPingTimer_changes _ _ _ _))
  | reconnected hw => exact .changed rfl (reconnectHandler_changes hs hw)
  | broken => exact .changed rfl (Calm.changes (.of_eq rfl))

end

end HyperliquidApi.Session
