import HyperliquidApi.KeptTopics

/-!
# An open session always has work

The thread that runs the session's handlers ends when nothing is pending any more, and nobody
starts it again. As long as the session is not closed there is always a task, an operation or a
timer to wait for.
-/
namespace HyperliquidApi.Session
open Timers Runs

variable {Topic : Type*}

/-- What the strand still waits for. -/
def Working (s : Session Topic) : Prop :=
  s.tasks ≠ [] ∨ s.pending ≠ [] ∨ s.pingTimer ≠ [] ∨ s.reconnectTimer ≠ []

/-- The first connection attempt is waiting until it has been made. -/
def Starting (s : Session Topic) : Prop := s.generation = 0 → .startConnect ∈ s.tasks

structure NotClosed (s : Session Topic) : Prop where
  userClosed : s.userClosed = false
  posts : .closeByUser ∉ s.posts
  tasks : .closeByUser ∉ s.tasks

instance (s : Session Topic) : Decidable (Working s) :=
  inferInstanceAs (Decidable (¬ _ ∨ ¬ _ ∨ ¬ _ ∨ ¬ _))

lemma Changes.userClosed {s s' : Session Topic} {out : List (ℕ × Message Topic)}
    (h : Changes s out s') : s'.userClosed = s.userClosed := by
  apply h.keep (P := fun t => t.userClosed = s.userClosed) rfl
  intro t out t' ht hchange
  cases hchange with
  | calm hcalm => rw [hcalm.userClosed, ht]
  | _ => exact ht

lemma Starting.carried {s s' : Session Topic} (h : Starting s) (hs : Carried s s') :
    Starting s' := by
  unfold Starting
  rw [hs.generation, hs.tasks]
  exact h

lemma Starting.startConnect {s : Session Topic} (hopen : s.userClosed = false) :
    Starting s.startConnect := by
  rcases startConnect_cases s with ⟨hclosed, _⟩ | ⟨_, heq⟩
  · cases hopen.symm.trans hclosed
  · rw [heq]
    intro hzero
    cases hzero

lemma Starting.runTask {s : Session Topic} (h : Starting s) (hopen : s.userClosed = false)
    {task : Task Topic} {rest : List (Task Topic)} (htasks : s.tasks = task :: rest) :
    Starting ({ s with tasks := rest }.runTask task) := by
  have hdequeued : task ≠ .startConnect → Starting { s with tasks := rest } := by
    intro hne hzero
    have hmem := h hzero
    rw [htasks] at hmem
    exact List.mem_of_ne_of_mem hne.symm hmem
  cases task with
  | startConnect => exact .startConnect hopen
  | flushTopics => exact (hdequeued (by simp)).carried (flushTopics_carried _)
  | unsubscribe topic =>
    have hrest := hdequeued (by simp)
    dsimp only [Session.runTask]
    split
    · have hqueued : Starting (enqueueOp { s with tasks := rest } (.unsubscribe topic)) := hrest
      exact hqueued.carried (pump_carried _)
    · exact hrest
  | closeByUser =>
    have hrest := hdequeued (by simp)
    dsimp only [Session.runTask]
    rcases closeByUser_cases { s with tasks := rest } with ⟨_, heq⟩ | ⟨_, _, heq⟩
    · rw [heq]
      exact hrest
    · rw [heq]
      exact hrest

lemma Phase.working {s : Session Topic} (h : Phase s) (hstarting : Starting s) : Working s := by
  cases h with
  | fresh hf => exact .inl (List.ne_nil_of_mem (hstarting hf.generation))
  | connecting hc =>
    have hpos : 0 < currentChains s := by rw [hc.currentChains]; exact Nat.one_pos
    obtain ⟨p, hp, _⟩ := List.countP_pos_iff.mp hpos
    exact .inr (.inl (List.ne_nil_of_mem hp))
  | up hu =>
    obtain ⟨w, hw, _⟩ := exists_live hu.pings
    exact .inr (.inr (.inl (List.ne_nil_of_mem hw)))
  | down hd =>
    obtain ⟨w, hw, _⟩ := exists_live hd.live
    exact .inr (.inr (.inr (List.ne_nil_of_mem hw)))

structure WorkInv (s : Session Topic) : Prop where
  progress : ProgressInv s
  notClosed : NotClosed s
  starting : Starting s

lemma WorkInv.working {s : Session Topic} (h : WorkInv s) : Working s :=
  (h.progress.phase h.notClosed.userClosed).working h.starting

section
variable [DecidableEq Topic]

/-- A session that is open was open before. -/
lemma Stepped.stillOpen {s s' : Session Topic} {a : Action Topic} (h : Stepped s a s')
    (hopen : s'.userClosed = false) : s.userClosed = false := by
  cases h with
  | called => exact hopen
  | closed htasks hbefore => exact hbefore
  | connected hp hbefore => exact hbefore
  | changed hsame hchanges => rwa [hchanges.userClosed] at hopen

lemma NotClosed.step {s s' : Session Topic} {a : Action Topic} (h : NotClosed s)
    (hs : ProgressInv s) (ha : a ≠ .close) (heffect : Effect s a s') : NotClosed s' := by
  have hnone : ¬ (.closeByUser ∈ s'.posts ∨ .closeByUser ∈ s'.tasks) := by
    intro hdue
    rcases heffect.due hdue with (hpost | htask) | hnew
    · exact h.posts hpost
    · exact h.tasks htask
    · cases hnew
      exact ha rfl
  refine ⟨?_, fun hpost => hnone (.inl hpost), fun htask => hnone (.inr htask)⟩
  cases stepped_of_effect hs heffect with
  | called => exact h.userClosed
  | closed htasks =>
    have hmem : .closeByUser ∈ s.tasks := by
      rw [htasks]
      exact List.mem_cons_self
    exact absurd hmem h.tasks
  | connected hp hopen hchanges => exact hchanges.userClosed.trans hopen
  | changed hsame hchanges => exact hchanges.userClosed.trans h.userClosed

lemma Starting.step {s s' : Session Topic} {a : Action Topic} (h : Starting s)
    (hopen : s.userClosed = false) (heffect : Effect s a s') : Starting s' := by
  cases heffect with
  | started hrun => exact fun _ => List.mem_append_right _ (List.mem_singleton_self _)
  | known htopic => exact h
  | added htopic => exact h
  | removed htopic => exact h
  | dropped htopic => exact h
  | closing => exact h
  | posted htask => exact fun hzero => List.mem_append_left _ (h hzero)
  | ran htasks => exact h.runTask hopen htasks
  | @completed p c now hp =>
    have hwithout : Starting (s.without p) := h
    exact hwithout.carried (onCompletion_carried (s.without p) p c now)
  | pingExpired hw hwaiting => exact h
  | reconnectExpired hw hwaiting => exact h
  | @pinged w now hw =>
    have herased : Starting { s with pingTimer := s.pingTimer.erase w } := h
    exact herased.carried (onPingTimer_carried _ _ _ _)
  | @reconnected w hw =>
    rcases onReconnectTimer_cases { s with reconnectTimer := s.reconnectTimer.erase w } w.stamp
      (w.status == Status.aborted) with heq | ⟨_, _, heq⟩ | ⟨_, _, heq⟩
    · rw [heq]
      exact h
    · rw [heq]
      exact h
    · rw [heq]
      exact .startConnect hopen
  | broken => exact h

/-- The call of `run` leaves the first connection attempt to do. -/
lemma workInv_of_start {s : Session Topic} (h : Session.step initial .run = some s) : WorkInv s := by
  obtain rfl := Option.some.inj h
  refine ⟨progressInv_initial.run rfl, ⟨rfl, by simp [initial], by simp [initial]⟩, ?_⟩
  exact fun _ => List.mem_singleton_self _

lemma WorkInv.step {s s' : Session Topic} {a : Action Topic} (h : WorkInv s) (ha : a ≠ .close)
    (heffect : Effect s a s') : WorkInv s' :=
  ⟨h.progress.step heffect, h.notClosed.step h.progress ha heffect,
    h.starting.step h.notClosed.userClosed heffect⟩

end

end HyperliquidApi.Session
