import HyperliquidApi.Runs
import HyperliquidApi.Timers

/-!
# The WebSocket session

All handlers run on one strand, so a step is one handler, one half of a caller's `subscribe`
or `unsubscribe`, or an event of the network or the clock. A stream is named by the generation
that opened it. Network operations complete in any order and with any result.
-/
namespace HyperliquidApi
open Timers

/-- Outbound messages; topics are equal when their JSON is. -/
inductive Message (Topic : Type*)
  | subscribe (topic : Topic)
  | unsubscribe (topic : Topic)
  | ping
  deriving DecidableEq

inductive Operation
  | resolve
  | connect
  | sslHandshake
  | handshake
  | read
  | write
  | close
  deriving DecidableEq

/-- An asynchronous operation whose handler has not run. -/
structure Pending where
  operation : Operation
  generation : ℕ
  deriving DecidableEq

/-- How an operation ends. A connect also fails when the server name cannot be set; a read is
malformed when its payload is no JSON text. -/
inductive Completion
  | ok
  | failed
  | malformed
  deriving DecidableEq

/-- What is posted to the strand. -/
inductive Task (Topic : Type*)
  | startConnect
  | flushTopics
  | unsubscribe (topic : Topic)
  | closeByUser
  deriving DecidableEq

def activityTimeoutS : ℕ := 75

def reconnectDelayMaxS : ℕ := 30

/-- The session's members, what is pending on the strand (`posts` are calls that have yet to
post their task), and `wire`, the messages handed to `async_write` with their generation. -/
structure Session (Topic : Type*) where
  outboundQueue : List (Message Topic)
  writeInFlight : Bool
  subscriptions : List Topic
  pendingTopics : List Topic
  reconnectDelayS : ℕ
  generation : ℕ
  connected : Bool
  connectedFlag : Bool
  reconnectScheduled : Bool
  userClosed : Bool
  lastActivity : ℕ
  wsOpen : Bool
  pending : List Pending
  pingTimer : List (Wait ℕ)
  reconnectTimer : List (Wait ℕ)
  tasks : List (Task Topic)
  posts : List (Task Topic)
  runCalled : Bool
  wire : List (ℕ × Message Topic)

namespace Session
variable {Topic : Type*}

def initial : Session Topic :=
  { outboundQueue := [], writeInFlight := false, subscriptions := [], pendingTopics := []
    reconnectDelayS := 1, generation := 0, connected := false, connectedFlag := false
    reconnectScheduled := false, userClosed := false, lastActivity := 0, wsOpen := false
    pending := [], pingTimer := [], reconnectTimer := [], tasks := [], posts := []
    runCalled := false, wire := [] }

def begin (s : Session Topic) (operation : Operation) (gen : ℕ) : Session Topic :=
  { s with pending := ⟨operation, gen⟩ :: s.pending }

def enqueueOp (s : Session Topic) (payload : Message Topic) : Session Topic :=
  { s with outboundQueue := s.outboundQueue ++ [payload] }

def pump (s : Session Topic) : Session Topic :=
  if s.writeInFlight ∨ ¬ s.connected ∨ ¬ s.wsOpen then s
  else
    match s.outboundQueue with
    | [] => s
    | payload :: rest =>
      { s with
        outboundQueue := rest
        writeInFlight := true
        wire := s.wire ++ [(s.generation, payload)] }.begin .write s.generation

lemma pump_cases (s : Session Topic) : s.pump = s ∨ ∃ payload rest,
    s.writeInFlight = false ∧ s.connected = true ∧ s.wsOpen = true ∧
    s.outboundQueue = payload :: rest ∧ s.pump =
      { s with
        outboundQueue := rest
        writeInFlight := true
        pending := ⟨.write, s.generation⟩ :: s.pending
        wire := s.wire ++ [(s.generation, payload)] } := by
  unfold pump
  split
  · exact .inl rfl
  · rename_i h
    split
    · exact .inl rfl
    · rename_i payload rest hqueue
      simp only [not_or, Bool.not_eq_true] at h
      exact .inr ⟨payload, rest, h.1, by simpa using h.2.1, by simpa using h.2.2, hqueue, rfl⟩

section
variable [DecidableEq Topic]

def addTopic (s : Session Topic) (topic : Topic) : Session Topic :=
  if topic ∈ s.subscriptions ∨ topic ∈ s.pendingTopics then s
  else { s with pendingTopics := s.pendingTopics ++ [topic] }

/-- The second component says whether the topic was a sent subscription. -/
def removeTopic (s : Session Topic) (topic : Topic) : Session Topic × Bool :=
  let erased := { s with pendingTopics := s.pendingTopics.filter (· ≠ topic) }
  if topic ∈ s.subscriptions then
    ({ erased with subscriptions := s.subscriptions.erase topic }, true)
  else (erased, false)

def isSubscribed (s : Session Topic) (topic : Topic) : Bool :=
  topic ∈ s.subscriptions || topic ∈ s.pendingTopics

end

def flushTopics (s : Session Topic) : Session Topic :=
  if s.connected then
    pump
      { s with
        subscriptions := s.subscriptions ++ s.pendingTopics
        pendingTopics := []
        outboundQueue := s.outboundQueue ++ s.pendingTopics.map .subscribe }
  else s

def startConnect (s : Session Topic) : Session Topic :=
  if s.userClosed then s
  else
    { s with
      generation := s.generation + 1
      connected := false
      connectedFlag := false
      writeInFlight := false
      wsOpen := false }.begin .resolve (s.generation + 1)

def handleError (s : Session Topic) (gen : ℕ) : Session Topic :=
  if gen ≠ s.generation ∨ s.reconnectScheduled then s
  else if s.userClosed then s
  else
    { s with
      reconnectScheduled := true
      connected := false
      connectedFlag := false
      writeInFlight := false
      pingTimer := cancel s.pingTimer
      outboundQueue := []
      pendingTopics := s.subscriptions ++ s.pendingTopics
      subscriptions := []
      reconnectTimer := arm gen s.reconnectTimer
      reconnectDelayS := min (s.reconnectDelayS * 2) reconnectDelayMaxS }

def onReconnectTimer (s : Session Topic) (gen : ℕ) (aborted : Bool) : Session Topic :=
  if gen ≠ s.generation then s
  else
    let cleared := { s with reconnectScheduled := false }
    if aborted ∨ s.userClosed then cleared else cleared.startConnect

/-- Before the first connection attempt there is no stream. Closing the socket under the stream
shows when its operations complete. -/
def closeByUser (s : Session Topic) : Session Topic :=
  if s.userClosed then s
  else
    let closed :=
      { s with
        userClosed := true
        pingTimer := cancel s.pingTimer
        reconnectTimer := cancel s.reconnectTimer }
    if s.generation ≠ 0 ∧ s.wsOpen ∧ ¬ s.writeInFlight then closed.begin .close s.generation
    else closed

lemma startConnect_cases (s : Session Topic) : s.userClosed = true ∧ s.startConnect = s ∨
    s.userClosed = false ∧ s.startConnect =
      { s with
        generation := s.generation + 1
        connected := false
        connectedFlag := false
        writeInFlight := false
        wsOpen := false
        pending := ⟨.resolve, s.generation + 1⟩ :: s.pending } := by
  by_cases hclosed : s.userClosed = true
  · exact .inl ⟨hclosed, by simp [startConnect, hclosed]⟩
  · rw [Bool.not_eq_true] at hclosed
    exact .inr ⟨hclosed, by simp [startConnect, hclosed, begin]⟩

lemma handleError_cases (s : Session Topic) (gen : ℕ) : s.handleError gen = s ∨
    gen = s.generation ∧ s.reconnectScheduled = false ∧ s.userClosed = false ∧
    s.handleError gen =
      { s with
        reconnectScheduled := true
        connected := false
        connectedFlag := false
        writeInFlight := false
        pingTimer := cancel s.pingTimer
        outboundQueue := []
        pendingTopics := s.subscriptions ++ s.pendingTopics
        subscriptions := []
        reconnectTimer := arm gen s.reconnectTimer
        reconnectDelayS := min (s.reconnectDelayS * 2) reconnectDelayMaxS } := by
  unfold handleError
  split
  · exact .inl rfl
  · rename_i hcurrent
    split
    · exact .inl rfl
    · rename_i hopen
      obtain ⟨hgen, hscheduled⟩ := not_or.mp hcurrent
      exact .inr ⟨not_not.mp hgen, by simpa using hscheduled, by simpa using hopen, rfl⟩

lemma onReconnectTimer_cases (s : Session Topic) (gen : ℕ) (aborted : Bool) :
    s.onReconnectTimer gen aborted = s ∨
    gen = s.generation ∧ (aborted = true ∨ s.userClosed = true) ∧
      s.onReconnectTimer gen aborted = { s with reconnectScheduled := false } ∨
    gen = s.generation ∧ s.userClosed = false ∧
      s.onReconnectTimer gen aborted = { s with reconnectScheduled := false }.startConnect := by
  unfold onReconnectTimer
  split
  · exact .inl rfl
  · rename_i hgen
    rw [ne_eq, not_not] at hgen
    dsimp only
    split
    · rename_i hstops
      exact .inr (.inl ⟨hgen, by simpa using hstops, rfl⟩)
    · rename_i hgoes
      exact .inr (.inr ⟨hgen, by simpa using (not_or.mp hgoes).2, rfl⟩)

lemma closeByUser_cases (s : Session Topic) : s.userClosed = true ∧ s.closeByUser = s ∨
    ∃ pending, (∀ p ∈ pending, p ∈ s.pending ∨ p.generation = s.generation) ∧ s.closeByUser =
      { s with
        userClosed := true
        pingTimer := cancel s.pingTimer
        reconnectTimer := cancel s.reconnectTimer
        pending := pending } := by
  by_cases hclosed : s.userClosed = true
  · exact .inl ⟨hclosed, by simp [closeByUser, hclosed]⟩
  · right
    simp only [closeByUser, hclosed, Bool.false_eq_true, if_false]
    split
    · refine ⟨⟨.close, s.generation⟩ :: s.pending, ?_, rfl⟩
      intro p hp
      rcases List.mem_cons.mp hp with rfl | hp
      · exact .inr rfl
      · exact .inl hp
    · exact ⟨s.pending, fun _ hp => .inl hp, rfl⟩

def onResolve (s : Session Topic) (gen : ℕ) (c : Completion) : Session Topic :=
  if c = .ok then s.begin .connect gen else s.handleError gen

def onConnect (s : Session Topic) (gen : ℕ) (c : Completion) : Session Topic :=
  if c = .ok then s.begin .sslHandshake gen else s.handleError gen

def onSSLHandshake (s : Session Topic) (gen : ℕ) (c : Completion) : Session Topic :=
  if c = .ok then s.begin .handshake gen else s.handleError gen

def onHandshake (s : Session Topic) (gen : ℕ) (c : Completion) (now : ℕ) : Session Topic :=
  if c ≠ .ok then s.handleError gen
  else if s.userClosed then { s with wsOpen := true }
  else
    flushTopics
      { s with
        wsOpen := true
        connected := true
        connectedFlag := true
        reconnectDelayS := 1
        lastActivity := now
        pingTimer := arm gen s.pingTimer }
    |>.begin .read gen

/-- What `dispatch` does to the rest of the program is not part of the session; a callback that
subscribes or closes shows up as a call of its own. -/
def onRead (s : Session Topic) (gen : ℕ) (c : Completion) (now : ℕ) : Session Topic :=
  match c with
  | .failed => s.handleError gen
  | .malformed => handleError { s with lastActivity := now } gen
  | .ok =>
    let read := { s with lastActivity := now }
    if gen ≠ s.generation ∨ s.reconnectScheduled ∨ ¬ s.connected then read
    else read.begin .read gen

def onWrite (s : Session Topic) (gen : ℕ) (c : Completion) : Session Topic :=
  let written := { s with writeInFlight := false }
  if c = .ok then written.pump else written.handleError gen

/-- `now` and `lastActivity` are milliseconds of the steady clock. -/
def onPingTimer (s : Session Topic) (gen : ℕ) (aborted : Bool) (now : ℕ) : Session Topic :=
  if aborted ∨ gen ≠ s.generation ∨ s.userClosed then s
  else if s.connected ∧ activityTimeoutS < (now - s.lastActivity) / 1000 then s.handleError gen
  else
    let pinged := if s.connected then (s.enqueueOp .ping).pump else s
    { pinged with pingTimer := arm gen pinged.pingTimer }

/-- Completions of an earlier generation are ignored, and the close handler only logs. -/
def onCompletion (s : Session Topic) (p : Pending) (c : Completion) (now : ℕ) : Session Topic :=
  if p.generation ≠ s.generation then s
  else
    match p.operation with
    | .resolve => s.onResolve p.generation c
    | .connect => s.onConnect p.generation c
    | .sslHandshake => s.onSSLHandshake p.generation c
    | .handshake => s.onHandshake p.generation c now
    | .read => s.onRead p.generation c now
    | .write => s.onWrite p.generation c
    | .close => s

def runTask (s : Session Topic) : Task Topic → Session Topic
  | .startConnect => s.startConnect
  | .flushTopics => s.flushTopics
  | .unsubscribe topic =>
    if s.connected then (s.enqueueOp (.unsubscribe topic)).pump else s
  | .closeByUser => s.closeByUser

/-- `run`, `subscribe`, `unsubscribe` and `close` are calls from any thread, `post` is their
second half; the other actions run one handler, let a timer expire or break the stream. -/
inductive Action (Topic : Type*)
  | run
  | subscribe (topic : Topic)
  | unsubscribe (topic : Topic)
  | close
  | post (task : Task Topic)
  | task
  | complete (p : Pending) (c : Completion) (now : ℕ)
  | pingExpires (w : Wait ℕ)
  | reconnectExpires (w : Wait ℕ)
  | pingTimer (w : Wait ℕ) (now : ℕ)
  | reconnectTimer (w : Wait ℕ)
  | drop

/-- `run` is called once. -/
def step [DecidableEq Topic] (s : Session Topic) : Action Topic → Option (Session Topic)
  | .run =>
    if s.runCalled then none
    else some { s with runCalled := true, tasks := s.tasks ++ [.startConnect] }
  | .subscribe topic =>
    let added := s.addTopic topic
    some { added with posts := .flushTopics :: added.posts }
  | .unsubscribe topic =>
    let (removed, sent) := s.removeTopic topic
    some (if sent then { removed with posts := .unsubscribe topic :: removed.posts } else removed)
  | .close => some { s with posts := .closeByUser :: s.posts }
  | .post task =>
    if task ∈ s.posts then
      some { s with posts := s.posts.erase task, tasks := s.tasks ++ [task] }
    else none
  | .task =>
    match s.tasks with
    | [] => none
    | task :: rest => some ({ s with tasks := rest }.runTask task)
  | .complete p c now =>
    if p ∈ s.pending then some ({ s with pending := s.pending.erase p }.onCompletion p c now)
    else none
  | .pingExpires w =>
    if w ∈ s.pingTimer ∧ w.status = .waiting then
      some { s with pingTimer := expire w s.pingTimer }
    else none
  | .reconnectExpires w =>
    if w ∈ s.reconnectTimer ∧ w.status = .waiting then
      some { s with reconnectTimer := expire w s.reconnectTimer }
    else none
  | .pingTimer w now =>
    if w ∈ s.pingTimer ∧ w.status ≠ .waiting then
      some ({ s with pingTimer := s.pingTimer.erase w }.onPingTimer w.stamp
        (w.status == Status.aborted) now)
    else none
  | .reconnectTimer w =>
    if w ∈ s.reconnectTimer ∧ w.status ≠ .waiting then
      some ({ s with reconnectTimer := s.reconnectTimer.erase w }.onReconnectTimer w.stamp
        (w.status == Status.aborted))
    else none
  | .drop => some { s with wsOpen := false }

/-- What an action does where it can happen, case by case. -/
inductive Effect [DecidableEq Topic] (s : Session Topic) : Action Topic → Session Topic → Prop
  | started (hrun : s.runCalled = false) :
      Effect s .run { s with runCalled := true, tasks := s.tasks ++ [.startConnect] }
  | known {topic : Topic} (htopic : topic ∈ s.subscriptions ∨ topic ∈ s.pendingTopics) :
      Effect s (.subscribe topic) { s with posts := .flushTopics :: s.posts }
  | added {topic : Topic} (htopic : ¬ (topic ∈ s.subscriptions ∨ topic ∈ s.pendingTopics)) :
      Effect s (.subscribe topic)
        { s with
          pendingTopics := s.pendingTopics ++ [topic]
          posts := .flushTopics :: s.posts }
  | removed {topic : Topic} (htopic : topic ∈ s.subscriptions) :
      Effect s (.unsubscribe topic)
        { s with
          pendingTopics := s.pendingTopics.filter (· ≠ topic)
          subscriptions := s.subscriptions.erase topic
          posts := .unsubscribe topic :: s.posts }
  | dropped {topic : Topic} (htopic : topic ∉ s.subscriptions) :
      Effect s (.unsubscribe topic)
        { s with pendingTopics := s.pendingTopics.filter (· ≠ topic) }
  | closing : Effect s .close { s with posts := .closeByUser :: s.posts }
  | posted {task : Task Topic} (htask : task ∈ s.posts) :
      Effect s (.post task)
        { s with posts := s.posts.erase task, tasks := s.tasks ++ [task] }
  | ran {task : Task Topic} {rest : List (Task Topic)} (htasks : s.tasks = task :: rest) :
      Effect s .task ({ s with tasks := rest }.runTask task)
  | completed {p : Pending} {c : Completion} {now : ℕ} (hp : p ∈ s.pending) :
      Effect s (.complete p c now) ({ s with pending := s.pending.erase p }.onCompletion p c now)
  | pingExpired {w : Wait ℕ} (hw : w ∈ s.pingTimer) (hwaiting : w.status = .waiting) :
      Effect s (.pingExpires w) { s with pingTimer := expire w s.pingTimer }
  | reconnectExpired {w : Wait ℕ} (hw : w ∈ s.reconnectTimer) (hwaiting : w.status = .waiting) :
      Effect s (.reconnectExpires w) { s with reconnectTimer := expire w s.reconnectTimer }
  | pinged {w : Wait ℕ} {now : ℕ} (hw : w ∈ s.pingTimer) :
      Effect s (.pingTimer w now) ({ s with pingTimer := s.pingTimer.erase w }.onPingTimer w.stamp
        (w.status == Status.aborted) now)
  | reconnected {w : Wait ℕ} (hw : w ∈ s.reconnectTimer) :
      Effect s (.reconnectTimer w)
        ({ s with reconnectTimer := s.reconnectTimer.erase w }.onReconnectTimer w.stamp
          (w.status == Status.aborted))
  | broken : Effect s .drop { s with wsOpen := false }

lemma effect_of_step [DecidableEq Topic] {s s' : Session Topic} {a : Action Topic}
    (h : step s a = some s') : Effect s a s' := by
  cases a with
  | run =>
    simp only [step] at h
    split at h
    · cases h
    · rename_i hrun
      obtain rfl := Option.some.inj h
      exact .started (by simpa using hrun)
  | subscribe topic =>
    by_cases htopic : topic ∈ s.subscriptions ∨ topic ∈ s.pendingTopics
    · simp only [step, addTopic, htopic, if_true, Option.some.injEq] at h
      subst h
      exact .known htopic
    · simp only [step, addTopic, htopic, if_false, Option.some.injEq] at h
      subst h
      exact .added htopic
  | unsubscribe topic =>
    by_cases htopic : topic ∈ s.subscriptions
    · simp only [step, removeTopic, htopic, if_true, Option.some.injEq] at h
      subst h
      exact .removed htopic
    · simp only [step, removeTopic, htopic, if_false, Bool.false_eq_true, Option.some.injEq] at h
      subst h
      exact .dropped htopic
  | close =>
    obtain rfl := Option.some.inj h
    exact .closing
  | post task =>
    simp only [step] at h
    split at h
    · rename_i htask
      obtain rfl := Option.some.inj h
      exact .posted htask
    · cases h
  | task =>
    simp only [step] at h
    split at h
    · cases h
    · rename_i htasks
      obtain rfl := Option.some.inj h
      exact .ran htasks
  | complete p c now =>
    simp only [step] at h
    split at h
    · rename_i hp
      obtain rfl := Option.some.inj h
      exact .completed hp
    · cases h
  | pingExpires w =>
    simp only [step] at h
    split at h
    · rename_i hw
      obtain rfl := Option.some.inj h
      exact .pingExpired hw.1 hw.2
    · cases h
  | reconnectExpires w =>
    simp only [step] at h
    split at h
    · rename_i hw
      obtain rfl := Option.some.inj h
      exact .reconnectExpired hw.1 hw.2
    · cases h
  | pingTimer w now =>
    simp only [step] at h
    split at h
    · rename_i hw
      obtain rfl := Option.some.inj h
      exact .pinged hw.1
    · cases h
  | reconnectTimer w =>
    simp only [step] at h
    split at h
    · rename_i hw
      obtain rfl := Option.some.inj h
      exact .reconnected hw.1
    · cases h
  | drop =>
    obtain rfl := Option.some.inj h
    exact .broken

end Session

end HyperliquidApi
