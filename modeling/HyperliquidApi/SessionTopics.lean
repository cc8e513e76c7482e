import HyperliquidApi.StrandTasks
import HyperliquidApi.TopicOrder

/-!
# What the venue is subscribed to

A caller changes the topic lists at once, while the messages to the venue are sent by tasks that
run later. The two agree in runs in which no topic is flushed while an earlier unsubscribe of it
is still on its way.
-/
namespace HyperliquidApi.Session
open Timers Runs

variable {Topic : Type*}

section
variable [DecidableEq Topic]

def apply (topics : List Topic) : Message Topic → List Topic
  | .subscribe topic => if topic ∈ topics then topics else topics ++ [topic]
  | .unsubscribe topic => topics.filter (· ≠ topic)
  | .ping => topics

/-- The topics that messages leave live. -/
def replay (messages : List (Message Topic)) : List Topic := messages.foldl apply []

lemma mem_apply (topics : List Topic) (message : Message Topic) (topic : Topic) :
    topic ∈ apply topics message ↔ message = .subscribe topic ∨
      topic ∈ topics ∧ message ≠ .unsubscribe topic := by
  cases message with
  | subscribe other =>
    have hmem : topic ∈ apply topics (.subscribe other) ↔ other = topic ∨ topic ∈ topics := by
      by_cases h : other ∈ topics
      · simp only [apply, h, if_true]
        constructor
        · exact Or.inr
        · rintro (rfl | ht)
          · exact h
          · exact ht
      · simp only [apply, h, if_false, List.mem_append, List.mem_singleton]
        rw [or_comm, @eq_comm _ topic other]
    simp only [hmem, Message.subscribe.injEq, ne_eq, reduceCtorEq, not_false_eq_true, and_true]
  | unsubscribe other =>
    simp only [apply, List.mem_filter, ne_eq, decide_not, Bool.not_eq_true', decide_eq_false_iff_not,
      reduceCtorEq, Message.unsubscribe.injEq, false_or]
    rw [@eq_comm _ topic other]
  | ping => simp [apply]

lemma mem_replay_append (messages : List (Message Topic)) (message : Message Topic)
    (topic : Topic) : topic ∈ replay (messages ++ [message]) ↔ message = .subscribe topic ∨
      topic ∈ replay messages ∧ message ≠ .unsubscribe topic := by
  simp only [replay, List.foldl_append, List.foldl_cons, List.foldl_nil]
  exact mem_apply _ message topic

lemma mem_replay_append_subscribes (messages : List (Message Topic)) (topics : List Topic)
    (topic : Topic) : topic ∈ replay (messages ++ topics.map .subscribe) ↔
      topic ∈ replay messages ∨ topic ∈ topics := by
  induction topics using List.reverseRecOn with
  | nil => simp
  | append_singleton topics other ih =>
    rw [List.map_append, ← List.append_assoc, List.map_singleton, mem_replay_append, ih]
    simp only [Message.subscribe.injEq, ne_eq, reduceCtorEq, not_false_eq_true, and_true,
      List.mem_append, List.mem_singleton]
    tauto

/-- Messages about other topics change nothing for this one. -/
lemma mem_replay_append_others {topic : Topic} {messages out : List (Message Topic)}
    (hsubscribe : .subscribe topic ∉ out) (hunsubscribe : .unsubscribe topic ∉ out) :
    topic ∈ replay (messages ++ out) ↔ topic ∈ replay messages := by
  induction out using List.reverseRecOn with
  | nil => rw [List.append_nil]
  | append_singleton out message ih =>
    rw [List.mem_append, List.mem_singleton, not_or] at hsubscribe hunsubscribe
    rw [← List.append_assoc, mem_replay_append, ih hsubscribe.1 hunsubscribe.1]
    constructor
    · rintro (hnew | ⟨hlive, _⟩)
      · exact absurd hnew.symm hsubscribe.2
      · exact hlive
    · intro hlive
      exact .inr ⟨hlive, Ne.symm hunsubscribe.2⟩

end

/-- An unsubscribe that has changed the topic lists and not yet the messages. -/
def Outstanding (s : Session Topic) (topic : Topic) : Prop :=
  .unsubscribe topic ∈ s.posts ∨ .unsubscribe topic ∈ s.tasks

/-- A flush would not overtake an unsubscribe of what it sends. -/
def Settled (s : Session Topic) : Prop := ∀ topic ∈ s.pendingTopics, ¬ Outstanding s topic

/-- Topics are flushed, by a task on a connected session or by the handshake, while settled. -/
def FlushesSettled (s : Session Topic) : Action Topic → Prop
  | .task => s.connected = true → s.tasks.head? = some .flushTopics → Settled s
  | .complete p c _ => p = ⟨.handshake, s.generation⟩ → c = .ok → s.userClosed = false → Settled s
  | _ => True

instance [DecidableEq Topic] (s : Session Topic) : Decidable (Settled s) :=
  inferInstanceAs (Decidable (∀ topic ∈ s.pendingTopics,
    ¬ (.unsubscribe topic ∈ s.posts ∨ .unsubscribe topic ∈ s.tasks)))

instance [DecidableEq Topic] (s : Session Topic) (a : Action Topic) :
    Decidable (FlushesSettled s a) :=
  match a with
  | .task => inferInstanceAs (Decidable (_ → _ → _))
  | .complete _ _ _ => inferInstanceAs (Decidable (_ → _ → _ → _))
  | .run | .subscribe _ | .unsubscribe _ | .close | .post _ | .pingExpires _ | .reconnectExpires _
  | .pingTimer _ _ | .reconnectTimer _ | .drop => isTrue trivial

/-- Nothing is left to do, and a call that has yet to post its task counts as left to do. -/
structure Quiescent (s : Session Topic) : Prop where
  connected : s.connected = true
  tasks : s.tasks = []
  posts : s.posts = []
  outboundQueue : s.outboundQueue = []
  writeInFlight : s.writeInFlight = false

instance (s : Session Topic) : Decidable (Quiescent s) :=
  decidable_of_iff (s.connected = true ∧ s.tasks = [] ∧ s.posts = [] ∧ s.outboundQueue = [] ∧
    s.writeInFlight = false)
    ⟨fun ⟨connected, tasks, posts, queue, write⟩ => ⟨connected, tasks, posts, queue, write⟩,
      fun h => ⟨h.connected, h.tasks, h.posts, h.outboundQueue, h.writeInFlight⟩⟩

/-- Once nothing is left to do, no topic waits and all messages have been written. -/
lemma Quiescent.drained {s : Session Topic} (h : Quiescent s) (hdue : FlushDue s) :
    s.pendingTopics = [] ∧ s.messages = s.written := by
  constructor
  · by_contra hne
    have hflush := hdue h.connected hne
    simp [h.posts, h.tasks] at hflush
  · rw [messages, h.outboundQueue, List.append_nil]

/-- The task that leaves the strand was at most this unsubscribe. -/
lemma outstanding_runTask {s : Session Topic} {task : Task Topic} {rest : List (Task Topic)}
    (htasks : s.tasks = task :: rest) {topic : Topic} (hne : task ≠ .unsubscribe topic) :
    Outstanding ({ s with tasks := rest }.runTask task) topic ↔ Outstanding s topic := by
  obtain ⟨hrest, hposts⟩ := runTask_strand { s with tasks := rest } task
  unfold Outstanding
  rw [hrest, hposts, htasks, List.mem_cons, or_iff_right hne.symm]

section
variable [DecidableEq Topic]

lemma Effect.outstanding {s s' : Session Topic} {a : Action Topic} (h : Effect s a s')
    {topic : Topic} (hout : Outstanding s' topic) :
    Outstanding s topic ∨ a = .unsubscribe topic ∧ topic ∈ s.subscriptions := by
  rcases h.due hout with hold | hnew
  · exact .inl hold
  · cases hnew with
    | unsubscribe hsent => exact .inr ⟨rfl, hsent⟩

/-- On a connection the topic has been sent if and only if the messages leave it live, unless its
unsubscribe is on its way. -/
def Agrees (topic : Topic) (s : Session Topic) : Prop :=
  s.connected = true →
    (topic ∈ s.subscriptions ↔ topic ∈ replay s.messages ∧ ¬ Outstanding s topic)

lemma Agrees.same {topic : Topic} {s s' : Session Topic} (h : Agrees topic s)
    (hconnected : s'.connected = s.connected) (hsubscriptions : s'.subscriptions = s.subscriptions)
    (hmessages : s'.messages = s.messages)
    (hout : Outstanding s' topic ↔ Outstanding s topic) : Agrees topic s' := by
  unfold Agrees
  rw [hconnected, hsubscriptions, hmessages, hout]
  exact h

/-- Changes that queue nothing about the topic. -/
lemma Agrees.changes {topic : Topic} {s s' : Session Topic} {out : List (ℕ × Message Topic)}
    (h : Agrees topic s) (hs : Changes s out s') (hsubscribe : .subscribe topic ∉ out.map Prod.snd)
    (hunsubscribe : .unsubscribe topic ∉ out.map Prod.snd)
    (hout : Outstanding s' topic ↔ Outstanding s topic) : Agrees topic s' := by
  intro hup
  obtain ⟨hbefore, hmessages⟩ := hs.messages hup
  rw [hs.mem_subscriptions hup hsubscribe, hmessages, mem_replay_append_others hsubscribe hunsubscribe,
    hout]
  exact h hbefore

/-- A settled flush sends what waits, and no unsubscribe of it comes after. -/
lemma Agrees.flushTopics {topic : Topic} {s : Session Topic} (h : Agrees topic s)
    (hup : s.connected = true) (hsettled : ¬ Outstanding s topic ∨ Settled s) :
    Agrees topic s.flushTopics := by
  obtain ⟨_, _, hsubscriptions, hmessages⟩ := flushTopics_up hup
  have hcarried := flushTopics_carried s
  have hout : Outstanding s.flushTopics topic ↔ Outstanding s topic := by
    unfold Outstanding
    rw [hcarried.tasks, hcarried.posts]
  intro _
  rw [hsubscriptions, hmessages, mem_replay_append_subscribes, hout, topics, List.mem_append, h hup]
  constructor
  · rintro (⟨hlive, hnot⟩ | hpending)
    · exact ⟨.inl hlive, hnot⟩
    · exact ⟨.inr hpending, hsettled.elim id fun hsettled => hsettled topic hpending⟩
  · rintro ⟨hlive | hpending, hnot⟩
    · exact .inl ⟨hlive, hnot⟩
    · exact .inr hpending

/-- A connection comes up with nothing sent. -/
lemma Agrees.cameUp {topic : Topic} {s : Session Topic} (hs : ProgressInv s) (hcleared : Cleared s)
    (hopen : s.userClosed = false) (hp : ⟨.handshake, s.generation⟩ ∈ s.pending) (now : ℕ) :
    Agrees topic (cameUp s now) := by
  have hdown := ((hs.phase hopen).of_chain hp rfl).connected
  have hempty : (Session.cameUp s now).messages = [] := (hcleared.handshake hs hopen hp now).1
  have hnone : (Session.cameUp s now).subscriptions = [] := (hcleared.idle hdown).1
  intro _
  rw [hempty, hnone]
  simp [replay]

/-- The unsubscribe that leaves the strand is the one that is sent. -/
lemma Agrees.runUnsubscribe {topic : Topic} {s : Session Topic} (h : Agrees topic s)
    {rest : List (Task Topic)} (htasks : s.tasks = .unsubscribe topic :: rest) :
    Agrees topic ({ s with tasks := rest }.runTask (.unsubscribe topic)) := by
  have hchanges := runUnsubscribe_changes s topic rest
  intro hup
  obtain ⟨hbefore, hmessages⟩ := hchanges.messages hup
  rw [map_snd_tagged, if_pos hbefore] at hmessages
  have hsame : topic ∈ ({ s with tasks := rest }.runTask (.unsubscribe topic)).subscriptions ↔
      topic ∈ s.subscriptions := by
    apply hchanges.mem_subscriptions hup
    rw [map_snd_tagged, if_pos hbefore]
    simp
  have hout : Outstanding s topic := .inr (htasks ▸ List.mem_cons_self)
  rw [hsame, h hbefore, hmessages, mem_replay_append]
  simp [hout]

lemma Agrees.runTask {topic : Topic} {s : Session Topic} (h : Agrees topic s) (hs : ProgressInv s)
    {task : Task Topic} {rest : List (Task Topic)} (htasks : s.tasks = task :: rest)
    (hsettled : ¬ Outstanding s topic ∨ FlushesSettled s .task) :
    Agrees topic ({ s with tasks := rest }.runTask task) := by
  by_cases hsame : task = .unsubscribe topic
  · subst hsame
    exact h.runUnsubscribe htasks
  · have hout := outstanding_runTask htasks hsame
    cases task with
    | startConnect => exact h.changes (runStart_changes hs htasks) (by simp) (by simp) hout
    | flushTopics =>
      dsimp only [Session.runTask] at hout ⊢
      by_cases hup : s.connected = true
      · have hdequeued : ∀ other, Outstanding { s with tasks := rest } other ↔
            Outstanding s other := by
          intro other
          unfold Outstanding
          rw [htasks, List.mem_cons]
          simp
        have hagrees : Agrees topic { s with tasks := rest } := h.same rfl rfl rfl (hdequeued topic)
        apply hagrees.flushTopics hup
        rw [hdequeued]
        apply hsettled.imp_right
        intro hsettled other hother
        rw [hdequeued]
        exact hsettled hup (htasks ▸ rfl) other hother
      · rw [Session.flushTopics, if_neg hup] at hout ⊢
        exact h.same rfl rfl rfl hout
    | unsubscribe other =>
      apply h.changes (runUnsubscribe_changes s other rest)
      · split <;> simp
      · have hne : topic ≠ other := fun heq => hsame (heq ▸ rfl)
        split <;> simp [hne]
      · exact hout
    | closeByUser =>
      dsimp only [Session.runTask] at hout ⊢
      rcases closeByUser_cases { s with tasks := rest } with ⟨_, heq⟩ | ⟨_, _, heq⟩
      · rw [heq] at hout ⊢
        exact h.same rfl rfl rfl hout
      · rw [heq] at hout ⊢
        exact h.same rfl rfl rfl hout

/-- A topic that was sent is erased, and its unsubscribe is posted. -/
lemma Agrees.remove {topic : Topic} {s : Session Topic} (h : Agrees topic s)
    (hnodup : s.subscriptions.Nodup) (other : Topic) (pendingTopics : List Topic) :
    Agrees topic
      { s with
        pendingTopics := pendingTopics
        subscriptions := s.subscriptions.erase other
        posts := .unsubscribe other :: s.posts } := by
  intro hup
  have hbefore : topic ∈ s.subscriptions ↔ topic ∈ replay s.messages ∧ ¬ Outstanding s topic := h hup
  have hout : Outstanding
      { s with
        pendingTopics := pendingTopics
        subscriptions := s.subscriptions.erase other
        posts := .unsubscribe other :: s.posts } topic ↔ topic = other ∨ Outstanding s topic := by
    simp [Outstanding, or_assoc]
  rw [hnodup.mem_erase_iff, hout, hbefore, not_or]
  exact and_left_comm

lemma Agrees.onCompletion {topic : Topic} {s : Session Topic} (h : Agrees topic s)
    (hs : ProgressInv s) (hcleared : Cleared s) {p : Pending} (hp : p ∈ s.pending) (c : Completion)
    (now : ℕ) (hsettled : ¬ Outstanding s topic ∨ FlushesSettled s (.complete p c now)) :
    Agrees topic ((s.without p).onCompletion p c now) := by
  by_cases hup : p = ⟨.handshake, s.generation⟩ ∧ c = .ok ∧ s.userClosed = false
  · obtain ⟨rfl, rfl, hopen⟩ := hup
    have hcame : Agrees topic (Session.cameUp s now) := .cameUp hs hcleared hopen hp now
    rw [handshake_up hopen]
    exact hcame.flushTopics rfl (hsettled.imp_right fun hsettled => hsettled rfl rfl hopen)
  · have hcarried := onCompletion_carried (s.without p) p c now
    apply h.changes (onCompletion_changes hp hup) (by simp) (by simp)
    unfold Outstanding
    rw [hcarried.tasks, hcarried.posts]
    rfl

/-- Either nothing is flushed ahead of an unsubscribe, or there is none of this topic. -/
lemma Agrees.step {topic : Topic} {s s' : Session Topic} {a : Action Topic} (h : Agrees topic s)
    (hs : ProgressInv s) (hcleared : Cleared s) (hnodup : s.topics.Nodup)
    (hsettled : ¬ Outstanding s topic ∨ FlushesSettled s a) (heffect : Effect s a s') :
    Agrees topic s' := by
  cases heffect with
  | started hrun => exact h.same rfl rfl rfl (by simp [Outstanding])
  | known htopic => exact h.same rfl rfl rfl (by simp [Outstanding])
  | added htopic => exact h.same rfl rfl rfl (by simp [Outstanding])
  | removed htopic => exact h.remove (List.nodup_append.mp hnodup).1 _ _
  | dropped htopic => exact h
  | closing => exact h.same rfl rfl rfl (by simp [Outstanding])
  | posted htask => exact h.same rfl rfl rfl (posted_due htask _)
  | ran htasks => exact h.runTask hs htasks hsettled
  | completed hp => exact h.onCompletion hs hcleared hp _ _ hsettled
  | pingExpired hw hwaiting => exact h
  | reconnectExpired hw hwaiting => exact h
  | @pinged w now hw =>
    have herased : Agrees topic { s with pingTimer := s.pingTimer.erase w } := h
    have hcarried := onPingTimer_carried { s with pingTimer := s.pingTimer.erase w } w.stamp
      (w.status == Status.aborted) now
    apply herased.changes (onPingTimer_changes _ _ _ _)
    · split <;> simp
    · split <;> simp
    · unfold Outstanding
      rw [hcarried.tasks, hcarried.posts]
  | @reconnected w hw =>
    have hstrand := onReconnectTimer_strand { s with reconnectTimer := s.reconnectTimer.erase w }
      w.stamp (w.status == Status.aborted)
    apply h.changes (reconnectHandler_changes hs hw) (by simp) (by simp)
    unfold Outstanding
    rw [hstrand.1, hstrand.2]
  | broken => exact h

structure TopicInv (s : Session Topic) : Prop where
  progress : ProgressInv s
  flushDue : FlushDue s
  agrees : ∀ topic, Agrees topic s

lemma topicInv_of_run {as : List (Action Topic)} {s : Session Topic}
    (h : Run step FlushesSettled initial as s) : TopicInv s := by
  induction h with
  | nil => exact ⟨progressInv_initial, .of_disconnected rfl, fun _ hup => (by cases hup)⟩
  | snoc prior settled next ih =>
    have heffect := effect_of_step next
    obtain ⟨hlists, hcleared⟩ := lists_of_run (prior.weaken fun _ _ _ => trivial)
    exact ⟨ih.progress.step heffect, ih.flushDue.step ih.progress heffect,
      fun topic => (ih.agrees topic).step ih.progress hcleared hlists.nodup (.inr settled) heffect⟩

/-- In a run whose flushes are settled, the venue's topics are the session's whenever nothing is
left to do. -/
theorem subscriptions_converge {as : List (Action Topic)} {s : Session Topic}
    (h : Run step FlushesSettled initial as s) (hquiet : Quiescent s) (topic : Topic) :
    topic ∈ replay s.written ↔ s.isSubscribed topic = true := by
  have hinv := topicInv_of_run h
  obtain ⟨hpending, hmessages⟩ := hquiet.drained hinv.flushDue
  have hout : ¬ Outstanding s topic := by simp [Outstanding, hquiet.posts, hquiet.tasks]
  have hsubscribed : s.isSubscribed topic = true ↔ topic ∈ s.subscriptions := by
    simp [isSubscribed, hpending]
  rw [hsubscribed, hinv.agrees topic hquiet.connected, hmessages, and_iff_left hout]

end

/-- A topic is subscribed on a connected session. -/
theorem subscriptions_converge_after_subscribe : ∃ s : Session String,
    Run step FlushesSettled initial (connects ++ ([.subscribe "trades", .post .flushTopics, .task,
      .complete ⟨.write, 1⟩ .ok 0] : List (Action String))) s ∧
    ("trades" ∈ replay s.written ↔ s.isSubscribed "trades" = true) := by
  refine (exists_run_of_execute (P := Quiescent) (by decide +kernel)).imp fun s h => ⟨h.1, ?_⟩
  exact subscriptions_converge h.1 h.2 "trades"

/-- The flush posted for one topic sends another again before that one's unsubscribe is sent. -/
theorem subscription_lost_to_overtaken_unsubscribe : ∃ s : Session String,
    Run step anyStep initial (connects ++ ([.subscribe "trades", .post .flushTopics, .task,
      .complete ⟨.write, 1⟩ .ok 0, .subscribe "bbo", .post .flushTopics, .unsubscribe "trades",
      .post (.unsubscribe "trades"), .subscribe "trades", .post .flushTopics, .task, .task, .task,
      .complete ⟨.write, 1⟩ .ok 0, .complete ⟨.write, 1⟩ .ok 0, .complete ⟨.write, 1⟩ .ok 0] :
      List (Action String))) s ∧
    Quiescent s ∧ s.isSubscribed "trades" = true ∧ "trades" ∉ replay s.written :=
  exists_run_of_execute (by decide +kernel)

end HyperliquidApi.Session
