import HyperliquidApi.TopicOrder

/-!
# The write pump

Writes of a connection that was torn down complete late, and `writeInFlight` is reset in several
places. Still no stream ever has two writes at once, and what is written on a connection is the
beginning of what was queued for it.
-/
namespace HyperliquidApi.Session
open Timers Runs

variable {Topic : Type*}

/-- The messages of one connection. -/
def onConnection (gen : ℕ) (entries : List (ℕ × Message Topic)) : List (Message Topic) :=
  entries.filterMap fun entry => if entry.1 = gen then some entry.2 else none

@[simp] lemma onConnection_append (gen : ℕ) (xs ys : List (ℕ × Message Topic)) :
    onConnection gen (xs ++ ys) = onConnection gen xs ++ onConnection gen ys :=
  List.filterMap_append

lemma onConnection_tagged (s : Session Topic) (out : List (Message Topic)) :
    onConnection s.generation (tagged s out) = out := by
  simp [onConnection, tagged, List.filterMap_map]

lemma onConnection_tagged_ne (s : Session Topic) (out : List (Message Topic)) {gen : ℕ}
    (h : s.generation ≠ gen) : onConnection gen (tagged s out) = [] := by
  simp [onConnection, tagged, List.filterMap_map, h]

/-- Keep a list of everything that is queued, with its connection. -/
def noteQueued [DecidableEq Topic] (queued : List (ℕ × Message Topic)) (s : Session Topic)
    (a : Action Topic) (_ : Session Topic) : List (ℕ × Message Topic) :=
  queued ++ tagged s (enqueues s a)

/-- What was queued is written in order, one write at a time. -/
structure Pumped (s : Session Topic) (queued : List (ℕ × Message Topic)) : Prop where
  oneWrite : ∀ gen, s.pending.count ⟨.write, gen⟩ ≤ 1
  idle : s.connected = false → s.writeInFlight = false
  inFlight : s.connected = true →
    s.pending.count ⟨.write, s.generation⟩ = if s.writeInFlight then 1 else 0
  waiting : s.connected = true → onConnection s.generation queued =
    onConnection s.generation s.wire ++ s.outboundQueue
  unqueued : s.userClosed = false → s.connected = false → s.reconnectScheduled = false →
    onConnection s.generation queued = []
  written : ∀ gen, onConnection gen s.wire <+: onConnection gen queued
  stamped : ∀ entry ∈ queued, entry.1 ≤ s.generation

lemma Pumped.calm {s s' : Session Topic} {queued : List (ℕ × Message Topic)} (h : Pumped s queued)
    (hs : Calm s s') : Pumped s' queued := by
  constructor
  · intro gen
    rw [hs.writes]
    exact h.oneWrite gen
  · rw [hs.connected, hs.writeInFlight]
    exact h.idle
  · rw [hs.connected, hs.writes, hs.generation, hs.writeInFlight]
    exact h.inFlight
  · rw [hs.connected, hs.generation, hs.wire, hs.outboundQueue]
    exact h.waiting
  · intro hopen hdown hscheduled
    rw [hs.userClosed] at hopen
    rw [hs.connected] at hdown
    rw [hs.generation]
    rcases hs.scheduled with hsame | hclosed
    · exact h.unqueued hopen hdown (hsame ▸ hscheduled)
    · cases hopen.symm.trans hclosed
  · rw [hs.wire]
    exact h.written
  · rw [hs.generation]
    exact h.stamped

/-- Queueing more on a connection. -/
lemma Pumped.queue {s : Session Topic} {queued : List (ℕ × Message Topic)} (h : Pumped s queued)
    (hup : s.connected = true) (out : List (Message Topic)) (subscriptions pendingTopics : List Topic) :
    Pumped
      { s with
        subscriptions := subscriptions
        pendingTopics := pendingTopics
        outboundQueue := s.outboundQueue ++ out } (queued ++ tagged s out) := by
  constructor
  · exact h.oneWrite
  · exact h.idle
  · exact h.inFlight
  · intro _
    dsimp only
    rw [onConnection_append, onConnection_tagged, h.waiting hup, List.append_assoc]
  · intro _ hdown
    cases hup.symm.trans hdown
  · intro gen
    rw [onConnection_append]
    exact (h.written gen).trans (List.prefix_append _ _)
  · intro entry hentry
    rcases List.mem_append.mp hentry with hold | hnew
    · exact h.stamped entry hold
    · obtain ⟨message, _, rfl⟩ := List.mem_map.mp hnew
      exact le_rfl

/-- A message is handed to a stream with no write in flight. -/
lemma Pumped.hand {s : Session Topic} {queued : List (ℕ × Message Topic)} (h : Pumped s queued)
    {payload : Message Topic} {rest : List (Message Topic)} (hidle : s.writeInFlight = false)
    (hup : s.connected = true) (hqueue : s.outboundQueue = payload :: rest) :
    Pumped
      { s with
        outboundQueue := rest
        writeInFlight := true
        pending := ⟨.write, s.generation⟩ :: s.pending
        wire := s.wire ++ [(s.generation, payload)] } queued := by
  have hnone : s.pending.count ⟨.write, s.generation⟩ = 0 := by
    rw [h.inFlight hup, hidle]
    rfl
  have hwire : onConnection s.generation (s.wire ++ [(s.generation, payload)]) =
      onConnection s.generation s.wire ++ [payload] := by
    rw [onConnection_append]
    exact congrArg _ (onConnection_tagged s [payload])
  have hwaiting : onConnection s.generation queued =
      onConnection s.generation (s.wire ++ [(s.generation, payload)]) ++ rest := by
    rw [h.waiting hup, hqueue, hwire, List.append_assoc]
    rfl
  constructor
  · intro gen
    by_cases hgen : gen = s.generation
    · rw [hgen, List.count_cons_self, hnone]
    · rw [List.count_cons_of_ne (by simpa using Ne.symm hgen)]
      exact h.oneWrite gen
  · intro hdown
    cases hup.symm.trans hdown
  · intro _
    rw [List.count_cons_self, hnone]
    rfl
  · intro _
    exact hwaiting
  · intro _ hdown
    cases hup.symm.trans hdown
  · intro gen
    by_cases hgen : s.generation = gen
    · subst hgen
      rw [hwaiting]
      exact List.prefix_append _ _
    · have hother : onConnection gen (s.wire ++ [(s.generation, payload)]) =
          onConnection gen s.wire := by
        rw [onConnection_append]
        have hnil := onConnection_tagged_ne s [payload] hgen
        rw [show [(s.generation, payload)] = tagged s [payload] from rfl, hnil, List.append_nil]
      rw [hother]
      exact h.written gen
  · exact h.stamped

/-- The completion of the write in flight. -/
lemma Pumped.wrote {s : Session Topic} {queued : List (ℕ × Message Topic)} (h : Pumped s queued)
    (hwrite : ⟨.write, s.generation⟩ ∈ s.pending) :
    Pumped
      { s with
        pending := s.pending.erase ⟨.write, s.generation⟩
        writeInFlight := false } queued := by
  have hle := h.oneWrite s.generation
  have hpos : 0 < s.pending.count ⟨.write, s.generation⟩ := List.count_pos_iff.mpr hwrite
  constructor
  · intro gen
    exact (List.erase_sublist.count_le _).trans (h.oneWrite gen)
  · exact fun _ => rfl
  · intro _
    rw [List.count_erase_self]
    dsimp only
    rw [if_neg (by simp)]
    omega
  · exact h.waiting
  · exact h.unqueued
  · exact h.written
  · exact h.stamped

/-- A completion of an earlier connection leaves the current one alone. -/
lemma Pumped.late {s : Session Topic} {queued : List (ℕ × Message Topic)} (h : Pumped s queued)
    {gen : ℕ} (hgen : gen ≠ s.generation) :
    Pumped { s with pending := s.pending.erase ⟨.write, gen⟩ } queued := by
  constructor
  · intro g
    exact (List.erase_sublist.count_le _).trans (h.oneWrite g)
  · exact h.idle
  · intro hup
    rw [List.count_erase_of_ne (by simpa using Ne.symm hgen)]
    exact h.inFlight hup
  · exact h.waiting
  · exact h.unqueued
  · exact h.written
  · exact h.stamped

lemma Pumped.restart {s : Session Topic} {queued : List (ℕ × Message Topic)} (h : Pumped s queued)
    (scheduled : Bool) :
    Pumped
      { s with
        reconnectScheduled := scheduled
        generation := s.generation + 1
        connected := false
        connectedFlag := false
        writeInFlight := false
        wsOpen := false
        pending := ⟨.resolve, s.generation + 1⟩ :: s.pending } queued := by
  constructor
  · intro gen
    rw [List.count_cons_of_ne (by simp)]
    exact h.oneWrite gen
  · exact fun _ => rfl
  · intro hup
    cases hup
  · intro hup
    cases hup
  · exact fun _ _ _ => filterMap_later h.stamped
  · exact h.written
  · intro entry hentry
    exact (h.stamped entry hentry).trans (Nat.le_succ _)

/-- A connection comes up with nothing queued, written or in flight. -/
lemma Pumped.comeUp {s : Session Topic} {queued : List (ℕ × Message Topic)} (h : Pumped s queued)
    (hs : ProgressInv s) (hcleared : Cleared s) (hopen : s.userClosed = false)
    (hp : ⟨.handshake, s.generation⟩ ∈ s.pending) (now : ℕ) : Pumped (cameUp s now) queued := by
  have hconnecting := (hs.phase hopen).of_chain hp rfl
  have hnone := hconnecting.no_writes hp
  have hdown := hconnecting.connected
  have hempty : onConnection s.generation queued = [] := h.unqueued hopen hdown hconnecting.scheduled
  have hwire : onConnection s.generation s.wire = [] :=
    hcleared.unwritten hopen hdown hconnecting.scheduled
  constructor
  · intro gen
    exact (List.erase_sublist.count_le _).trans (h.oneWrite gen)
  · intro hnot
    cases hnot
  · intro _
    show (s.without ⟨.handshake, s.generation⟩).pending.count ⟨.write, s.generation⟩ =
      if s.writeInFlight then 1 else 0
    rw [hnone, h.idle hdown]
    rfl
  · intro _
    show onConnection s.generation queued = onConnection s.generation s.wire ++ s.outboundQueue
    rw [hempty, hwire, (hcleared.idle hdown).2]
    rfl
  · intro _ hnot
    cases hnot
  · exact h.written
  · exact h.stamped

lemma Pumped.change {s s' : Session Topic} {queued : List (ℕ × Message Topic)}
    {out : List (Message Topic)} (h : Pumped s queued) (hs : Change s out s') :
    Pumped s' (queued ++ tagged s out) := by
  cases hs with
  | flushed hup => exact h.queue hup _ _ _
  | enqueued payload hup => exact h.queue hup [payload] s.subscriptions s.pendingTopics
  | calm hcalm => simpa [tagged] using h.calm hcalm
  | handed hidle hup hqueue => simpa [tagged] using h.hand hidle hup hqueue
  | wrote hwrite => simpa [tagged] using h.wrote hwrite
  | late hgen => simpa [tagged] using h.late hgen
  | tornDown hscheduled hopen pingTimer reconnectTimer reconnectDelayS =>
    rw [show tagged s [] = [] from rfl, List.append_nil]
    exact ⟨h.oneWrite, fun _ => rfl, fun hup => (by cases hup), fun hup => (by cases hup),
      fun _ _ hnot => (by cases hnot), h.written, h.stamped⟩
  | restarted hdown hopen hstamped scheduled => simpa [tagged] using h.restart scheduled

lemma Pumped.changes {s s' : Session Topic} {queued out : List (ℕ × Message Topic)}
    (h : Pumped s queued) (hs : Changes s out s') : Pumped s' (queued ++ out) := by
  induction hs with
  | none => simpa using h
  | more _ next ih =>
    rw [← List.append_assoc]
    exact ih.change next

lemma noteQueued_nil [DecidableEq Topic] {s : Session Topic} {a : Action Topic}
    (queued : List (ℕ × Message Topic)) (s' : Session Topic) (h : enqueues s a = []) :
    noteQueued queued s a s' = queued := by
  rw [noteQueued, h, tagged, List.map_nil, List.append_nil]

lemma Pumped.step [DecidableEq Topic] {s s' : Session Topic} {a : Action Topic}
    {queued : List (ℕ × Message Topic)} (h : Pumped s queued) (hs : ProgressInv s)
    (hcleared : Cleared s) (hstepped : Stepped s a s') : Pumped s' (noteQueued queued s a s') := by
  cases hstepped with
  | called hcall hnil htopics =>
    have hqueues : enqueues s a = [] := by
      obtain ⟨topic, rfl | rfl⟩ := hcall <;> rfl
    rw [noteQueued_nil _ _ hqueues]
    exact ⟨h.oneWrite, h.idle, h.inFlight, h.waiting, h.unqueued, h.written, h.stamped⟩
  | closed htasks hopen hcalm =>
    have hclosed : Pumped { s with userClosed := true } queued :=
      ⟨h.oneWrite, h.idle, h.inFlight, h.waiting, fun hnot => (by cases hnot), h.written,
        h.stamped⟩
    rw [noteQueued_nil _ _ (by rw [enqueues, htasks])]
    exact hclosed.calm hcalm
  | @connected now _ hp hopen hchanges =>
    have hqueues : enqueues s (.complete ⟨.handshake, s.generation⟩ .ok now) =
        s.pendingTopics.map .subscribe := if_pos ⟨rfl, rfl, hopen⟩
    rw [noteQueued, hqueues]
    exact (h.comeUp hs hcleared hopen hp now).changes hchanges
  | changed hsame hchanges => exact h.changes hchanges

lemma pumped_initial : Pumped (initial : Session Topic) [] where
  oneWrite := by simp [initial]
  idle _ := rfl
  inFlight := by simp [initial]
  waiting := by simp [initial]
  unqueued _ _ _ := rfl
  written _ := List.prefix_rfl
  stamped := by simp

/-- No stream ever has two writes outstanding. The messages written on a connection are the first
ones queued for it, in order; on the current connection the others are still in the queue. -/
theorem writes_are_prefix_of_queued [DecidableEq Topic] {as : List (Action Topic)}
    {s : Session Topic} {queued : List (ℕ × Message Topic)}
    (h : Run (watched step noteQueued) anyStep (initial, []) as (s, queued)) :
    (∀ gen, s.pending.count ⟨.write, gen⟩ ≤ 1) ∧
    (∀ gen, onConnection gen s.wire <+: onConnection gen queued) ∧
    (s.connected = true → onConnection s.generation queued =
      onConnection s.generation s.wire ++ s.outboundQueue) := by
  have hinv : ProgressInv s ∧ Cleared s ∧ Pumped s queued := by
    apply h.invariant (P := fun t => ProgressInv t.1 ∧ Cleared t.1 ∧ Pumped t.1 t.2)
      ⟨progressInv_initial, cleared_initial, pumped_initial⟩
    rintro ⟨t, q⟩ a ⟨t', q'⟩ ⟨hprogress, hcleared, hpumped⟩ _ hstep
    obtain ⟨hnext, hnote⟩ := watched_eq_some hstep
    have heffect := effect_of_step hnext
    have hstepped := stepped_of_effect hprogress heffect
    dsimp only at hnote ⊢
    rw [hnote]
    exact ⟨hprogress.step heffect, hcleared.step hstepped,
      hpumped.step hprogress hcleared hstepped⟩
  exact ⟨hinv.2.2.oneWrite, hinv.2.2.written, hinv.2.2.waiting⟩

/-- The stream breaks with a write in flight and two messages waiting; the write completes late,
and the next connection starts over. -/
theorem writes_are_prefix_of_queued_after_reconnect : ∃ (s : Session String)
    (queued : List (ℕ × Message String)),
    Run (watched step noteQueued) anyStep (initial, []) (connects ++
      ([.subscribe "trades", .subscribe "bbo", .post .flushTopics, .task,
        .complete ⟨.read, 1⟩ .failed 5, .complete ⟨.write, 1⟩ .ok 6,
        .reconnectExpires ⟨1, .waiting⟩, .reconnectTimer ⟨1, .fired⟩, .complete ⟨.resolve, 2⟩ .ok 6,
        .complete ⟨.connect, 2⟩ .ok 7, .complete ⟨.sslHandshake, 2⟩ .ok 8,
        .complete ⟨.handshake, 2⟩ .ok 9] : List (Action String))) (s, queued) ∧
    onConnection 1 s.wire = [.subscribe "trades"] ∧
    onConnection 1 s.wire <+: onConnection 1 queued := by
  refine Prod.exists'.mp ((exists_run_of_execute (P := fun (s, _) =>
    onConnection 1 s.wire = [.subscribe "trades"]) (by decide +kernel)).imp fun x h =>
      ⟨h.1, h.2, ?_⟩)
  exact (writes_are_prefix_of_queued h.1).2.1 1

end HyperliquidApi.Session
