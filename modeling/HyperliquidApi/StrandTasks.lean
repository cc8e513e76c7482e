import HyperliquidApi.SessionMessages

/-!
# The tasks on the strand

Tasks are posted by calls only, and no handler drops one, so as long as topics wait on a connected
session a flush of them is on its way.
-/
namespace HyperliquidApi.Session
open Timers Runs

variable {Topic : Type*}

lemma startConnect_strand (s : Session Topic) :
    s.startConnect.tasks = s.tasks ∧ s.startConnect.posts = s.posts := by
  rcases startConnect_cases s with ⟨_, heq⟩ | ⟨_, heq⟩
  · rw [heq]
    exact ⟨rfl, rfl⟩
  · rw [heq]
    exact ⟨rfl, rfl⟩

lemma onReconnectTimer_strand (s : Session Topic) (gen : ℕ) (aborted : Bool) :
    (s.onReconnectTimer gen aborted).tasks = s.tasks ∧
      (s.onReconnectTimer gen aborted).posts = s.posts := by
  rcases onReconnectTimer_cases s gen aborted with heq | ⟨_, _, heq⟩ | ⟨_, _, heq⟩
  · rw [heq]
    exact ⟨rfl, rfl⟩
  · rw [heq]
    exact ⟨rfl, rfl⟩
  · rw [heq]
    exact startConnect_strand _

lemma runTask_strand (s : Session Topic) (task : Task Topic) :
    (s.runTask task).tasks = s.tasks ∧ (s.runTask task).posts = s.posts := by
  cases task with
  | startConnect => exact startConnect_strand s
  | flushTopics =>
    have hcarried := flushTopics_carried s
    exact ⟨hcarried.tasks, hcarried.posts⟩
  | unsubscribe other =>
    dsimp only [runTask]
    split
    · have hcarried := pump_carried (s.enqueueOp (.unsubscribe other))
      exact ⟨hcarried.tasks, hcarried.posts⟩
    · exact ⟨rfl, rfl⟩
  | closeByUser =>
    dsimp only [runTask]
    rcases closeByUser_cases s with ⟨_, heq⟩ | ⟨_, _, heq⟩
    · rw [heq]
      exact ⟨rfl, rfl⟩
    · rw [heq]
      exact ⟨rfl, rfl⟩

/-- Topics wait only as long as a flush is due. -/
def FlushDue (s : Session Topic) : Prop :=
  s.connected = true → s.pendingTopics ≠ [] → .flushTopics ∈ s.posts ∨ .flushTopics ∈ s.tasks

lemma FlushDue.of_disconnected {s : Session Topic} (h : s.connected = false) : FlushDue s := by
  intro hconnected
  rw [h] at hconnected
  cases hconnected

lemma FlushDue.dequeue {s : Session Topic} (h : FlushDue s) {task : Task Topic}
    {rest : List (Task Topic)} (htasks : s.tasks = task :: rest) (hne : task ≠ .flushTopics) :
    FlushDue { s with tasks := rest } := by
  intro hup hpending
  rcases h hup hpending with hpost | htask
  · exact .inl hpost
  · rw [htasks] at htask
    exact .inr (List.mem_of_ne_of_mem hne.symm htask)

lemma FlushDue.changes {s s' : Session Topic} {out : List (ℕ × Message Topic)} (h : FlushDue s)
    (hs : Changes s out s') (htasks : s'.tasks = s.tasks) (hposts : s'.posts = s.posts) :
    FlushDue s' := by
  intro hup hne
  rw [htasks, hposts]
  rcases hs.pendingTopics hup with hsame | hnil
  · exact h (hs.messages hup).1 (hsame ▸ hne)
  · exact absurd hnil hne

lemma FlushDue.runTask {s : Session Topic} (h : FlushDue s) {task : Task Topic}
    {rest : List (Task Topic)} (htasks : s.tasks = task :: rest) :
    FlushDue ({ s with tasks := rest }.runTask task) := by
  cases task with
  | startConnect =>
    dsimp only [Session.runTask]
    rcases startConnect_cases { s with tasks := rest } with ⟨_, heq⟩ | ⟨_, heq⟩
    · rw [heq]
      exact h.dequeue htasks (by simp)
    · rw [heq]
      exact .of_disconnected rfl
  | flushTopics =>
    dsimp only [Session.runTask]
    by_cases hup : s.connected = true
    · intro _ hne
      exact absurd (flushTopics_up (s := { s with tasks := rest }) hup).2.1 hne
    · rw [flushTopics, if_neg hup]
      exact .of_disconnected (by simpa using hup)
  | unsubscribe topic =>
    have hdequeued : FlushDue { s with tasks := rest } := h.dequeue htasks (by simp)
    dsimp only [Session.runTask]
    split
    · have hqueued : FlushDue (enqueueOp { s with tasks := rest } (.unsubscribe topic)) := hdequeued
      have hcarried := pump_carried (enqueueOp { s with tasks := rest } (.unsubscribe topic))
      exact hqueued.changes (pump_changes _) hcarried.tasks hcarried.posts
    · exact hdequeued
  | closeByUser =>
    have hdequeued : FlushDue { s with tasks := rest } := h.dequeue htasks (by simp)
    dsimp only [Session.runTask]
    rcases closeByUser_cases { s with tasks := rest } with ⟨_, heq⟩ | ⟨_, _, heq⟩
    · rw [heq]
      exact hdequeued
    · rw [heq]
      exact hdequeued

lemma FlushDue.onCompletion {s : Session Topic} (h : FlushDue s) {p : Pending} (hp : p ∈ s.pending)
    (c : Completion) (now : ℕ) : FlushDue ((s.without p).onCompletion p c now) := by
  by_cases hup : p = ⟨.handshake, s.generation⟩ ∧ c = .ok ∧ s.userClosed = false
  · obtain ⟨rfl, rfl, hopen⟩ := hup
    rw [handshake_up hopen]
    intro _ hne
    exact absurd (flushTopics_up (s := cameUp s now) rfl).2.1 hne
  · have hcarried := onCompletion_carried (s.without p) p c now
    exact h.changes (onCompletion_changes hp hup) hcarried.tasks hcarried.posts

section
variable [DecidableEq Topic]

/-- Posting moves a task from its call to the strand. -/
lemma posted_due {s : Session Topic} {task : Task Topic} (htask : task ∈ s.posts)
    (other : Task Topic) : other ∈ s.posts.erase task ∨ other ∈ s.tasks ++ [task] ↔
      other ∈ s.posts ∨ other ∈ s.tasks := by
  have hmem : other ∈ s.posts ↔ other = task ∨ other ∈ s.posts.erase task := by
    rw [(List.perm_cons_erase htask).mem_iff, List.mem_cons]
  rw [hmem, List.mem_append, List.mem_singleton]
  tauto

lemma FlushDue.step {s s' : Session Topic} {a : Action Topic} (h : FlushDue s) (hs : ProgressInv s)
    (heffect : Effect s a s') : FlushDue s' := by
  have hfiltered : ∀ topic, s.connected = true → s.pendingTopics.filter (· ≠ topic) ≠ [] →
      .flushTopics ∈ s.posts ∨ .flushTopics ∈ s.tasks := by
    intro topic hup hne
    apply h hup
    intro hnil
    apply hne
    rw [hnil]
    rfl
  cases heffect with
  | started hrun =>
    intro hup hne
    exact (h hup hne).imp_right (List.mem_append_left _)
  | known htopic => exact fun _ _ => .inl List.mem_cons_self
  | added htopic => exact fun _ _ => .inl List.mem_cons_self
  | removed htopic =>
    intro hup hne
    exact (hfiltered _ hup hne).imp_left (List.mem_cons_of_mem _)
  | dropped htopic => exact hfiltered _
  | closing =>
    intro hup hne
    exact (h hup hne).imp_left (List.mem_cons_of_mem _)
  | posted htask => exact fun hup hne => (posted_due htask _).mpr (h hup hne)
  | ran htasks => exact h.runTask htasks
  | completed hp => exact h.onCompletion hp _ _
  | pingExpired hw hwaiting => exact h
  | reconnectExpired hw hwaiting => exact h
  | @pinged w now hw =>
    have hcarried := onPingTimer_carried { s with pingTimer := s.pingTimer.erase w } w.stamp
      (w.status == Status.aborted) now
    have herased : FlushDue { s with pingTimer := s.pingTimer.erase w } := h
    exact herased.changes (onPingTimer_changes _ _ _ _) hcarried.tasks hcarried.posts
  | @reconnected w hw =>
    have hstrand := onReconnectTimer_strand { s with reconnectTimer := s.reconnectTimer.erase w }
      w.stamp (w.status == Status.aborted)
    exact h.changes (reconnectHandler_changes hs hw) hstrand.1 hstrand.2
  | broken => exact h

/-- The task that a call posts. -/
inductive Posts (s : Session Topic) : Action Topic → Task Topic → Prop
  | run : Posts s .run .startConnect
  | subscribe {topic : Topic} : Posts s (.subscribe topic) .flushTopics
  | unsubscribe {topic : Topic} (hsent : topic ∈ s.subscriptions) :
      Posts s (.unsubscribe topic) (.unsubscribe topic)
  | close : Posts s .close .closeByUser

/-- What a task needs to run is a call: handlers leave nothing on the strand. -/
lemma Effect.due {s s' : Session Topic} {a : Action Topic} (h : Effect s a s') {task : Task Topic}
    (hdue : task ∈ s'.posts ∨ task ∈ s'.tasks) :
    (task ∈ s.posts ∨ task ∈ s.tasks) ∨ Posts s a task := by
  have hstrand : ∀ t : Session Topic, (s'.tasks = t.tasks ∧ s'.posts = t.posts) →
      task ∈ t.posts ∨ task ∈ t.tasks := by
    rintro t ⟨htasks, hposts⟩
    rwa [htasks, hposts] at hdue
  cases h with
  | started hrun =>
    rcases hdue with hpost | htask
    · exact .inl (.inl hpost)
    · rcases List.mem_append.mp htask with hold | hnew
      · exact .inl (.inr hold)
      · rw [List.mem_singleton.mp hnew]
        exact .inr .run
  | known htopic =>
    rcases hdue with hpost | htask
    · rcases List.mem_cons.mp hpost with rfl | hpost
      · exact .inr .subscribe
      · exact .inl (.inl hpost)
    · exact .inl (.inr htask)
  | added htopic =>
    rcases hdue with hpost | htask
    · rcases List.mem_cons.mp hpost with rfl | hpost
      · exact .inr .subscribe
      · exact .inl (.inl hpost)
    · exact .inl (.inr htask)
  | removed htopic =>
    rcases hdue with hpost | htask
    · rcases List.mem_cons.mp hpost with rfl | hpost
      · exact .inr (.unsubscribe htopic)
      · exact .inl (.inl hpost)
    · exact .inl (.inr htask)
  | dropped htopic => exact .inl hdue
  | closing =>
    rcases hdue with hpost | htask
    · rcases List.mem_cons.mp hpost with rfl | hpost
      · exact .inr .close
      · exact .inl (.inl hpost)
    · exact .inl (.inr htask)
  | posted htask => exact .inl ((posted_due htask task).mp hdue)
  | @ran first rest htasks =>
    have hrest := hstrand _ (runTask_strand { s with tasks := rest } first)
    rw [htasks]
    exact .inl (hrest.imp_right (List.mem_cons_of_mem _))
  | @completed p c now hp =>
    have hcarried := onCompletion_carried (s.without p) p c now
    exact .inl (hstrand _ ⟨hcarried.tasks, hcarried.posts⟩)
  | pingExpired hw hwaiting => exact .inl hdue
  | reconnectExpired hw hwaiting => exact .inl hdue
  | @pinged w now hw =>
    have hcarried := onPingTimer_carried { s with pingTimer := s.pingTimer.erase w } w.stamp
      (w.status == Status.aborted) now
    exact .inl (hstrand _ ⟨hcarried.tasks, hcarried.posts⟩)
  | @reconnected w hw =>
    exact .inl (hstrand _ (onReconnectTimer_strand
      { s with reconnectTimer := s.reconnectTimer.erase w } w.stamp (w.status == Status.aborted)))
  | broken => exact .inl hdue

end

end HyperliquidApi.Session
