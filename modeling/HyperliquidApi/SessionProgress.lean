import HyperliquidApi.SessionPhases

/-!
# The session never stalls

Every step keeps an open session in one of its phases, so in every run exactly one completion is
due that moves it on.
-/
namespace HyperliquidApi.Session
open Timers Runs

variable {Topic : Type*}

def startsConnect : Task Topic → Bool
  | .startConnect => true
  | _ => false

/-- The first connection attempt is posted once, and not again after it has been made. -/
structure StartsOnce (s : Session Topic) : Prop where
  posted : s.tasks.countP startsConnect ≤ if s.generation = 0 ∧ s.runCalled then 1 else 0
  notPosted : ∀ task ∈ s.posts, startsConnect task = false
  notRun : s.runCalled = false → s.generation = 0

structure ProgressInv (s : Session Topic) : Prop where
  stamped : Stamped s
  startsOnce : StartsOnce s
  phase : s.userClosed = false → Phase s

/-- The generation and the posted tasks stay, and what is newly pending carries the generation. -/
structure Carried (s s' : Session Topic) : Prop where
  generation : s'.generation = s.generation
  userClosed : s'.userClosed = s.userClosed
  tasks : s'.tasks = s.tasks
  posts : s'.posts = s.posts
  runCalled : s'.runCalled = s.runCalled
  pending : ∀ p ∈ s'.pending, p ∈ s.pending ∨ p.generation = s.generation
  pingTimer : ∀ P : ℕ → Prop, P s.generation → (∀ w ∈ s.pingTimer, P w.stamp) →
    ∀ w ∈ s'.pingTimer, P w.stamp
  reconnectTimer : ∀ P : ℕ → Prop, P s.generation → (∀ w ∈ s.reconnectTimer, P w.stamp) →
    ∀ w ∈ s'.reconnectTimer, P w.stamp

lemma Carried.of_eq {s s' : Session Topic}
    (h : (s'.generation, s'.userClosed, s'.tasks, s'.posts, s'.runCalled, s'.pending, s'.pingTimer,
        s'.reconnectTimer) =
      (s.generation, s.userClosed, s.tasks, s.posts, s.runCalled, s.pending, s.pingTimer,
        s.reconnectTimer)) : Carried s s' := by
  simp only [Prod.mk.injEq] at h
  obtain ⟨hgen, hclosed, htasks, hposts, hrun, hpending, hping, hreconnect⟩ := h
  refine ⟨hgen, hclosed, htasks, hposts, hrun, fun _ hp => .inl (hpending ▸ hp), ?_, ?_⟩
  · rw [hping]
    exact fun _ _ hs => hs
  · rw [hreconnect]
    exact fun _ _ hs => hs

lemma Carried.refl (s : Session Topic) : Carried s s := .of_eq rfl

lemma Carried.trans {s t u : Session Topic} (h : Carried s t) (h' : Carried t u) : Carried s u where
  generation := h'.generation.trans h.generation
  userClosed := h'.userClosed.trans h.userClosed
  tasks := h'.tasks.trans h.tasks
  posts := h'.posts.trans h.posts
  runCalled := h'.runCalled.trans h.runCalled
  pending p hp := by
    rcases h'.pending p hp with ht | hgen
    · exact h.pending p ht
    · exact .inr (hgen.trans h.generation)
  pingTimer P hgen hs := h'.pingTimer P (h.generation ▸ hgen) (h.pingTimer P hgen hs)
  reconnectTimer P hgen hs := h'.reconnectTimer P (h.generation ▸ hgen) (h.reconnectTimer P hgen hs)

lemma pump_carried (s : Session Topic) : Carried s s.pump := by
  rcases s.pump_cases with h | ⟨payload, rest, _, _, _, _, h⟩
  · rw [h]
    exact .refl s
  · rw [h]
    have hpending : ∀ p ∈ (⟨.write, s.generation⟩ :: s.pending : List Pending),
        p ∈ s.pending ∨ p.generation = s.generation := by
      intro p hp
      rcases List.mem_cons.mp hp with rfl | hp
      · exact .inr rfl
      · exact .inl hp
    exact ⟨rfl, rfl, rfl, rfl, rfl, hpending, fun _ _ hs => hs, fun _ _ hs => hs⟩

lemma enqueueOp_carried (s : Session Topic) (payload : Message Topic) :
    Carried s (s.enqueueOp payload) := .of_eq rfl

lemma flushTopics_carried (s : Session Topic) : Carried s s.flushTopics := by
  unfold flushTopics
  split
  · have hqueued : Carried s
        { s with
          subscriptions := s.subscriptions ++ s.pendingTopics
          pendingTopics := []
          outboundQueue := s.outboundQueue ++ s.pendingTopics.map .subscribe } := .of_eq rfl
    exact hqueued.trans (pump_carried _)
  · exact .refl s

lemma Stamped.carried {s s' : Session Topic} (h : Stamped s) (hs : Carried s s') : Stamped s' := by
  constructor
  · intro p hp
    rw [hs.generation]
    rcases hs.pending p hp with hold | hnew
    · exact h.pending p hold
    · exact hnew.le
  · rw [hs.generation]
    exact hs.pingTimer (· ≤ s.generation) le_rfl h.pingTimer
  · rw [hs.generation]
    exact hs.reconnectTimer (· ≤ s.generation) le_rfl h.reconnectTimer

lemma StartsOnce.carried {s s' : Session Topic} (h : StartsOnce s) (hs : Carried s s') :
    StartsOnce s' := by
  constructor
  · rw [hs.tasks, hs.generation, hs.runCalled]
    exact h.posted
  · rw [hs.posts]
    exact h.notPosted
  · rw [hs.runCalled, hs.generation]
    exact h.notRun

lemma begin_carried (s : Session Topic) (operation : Operation) {gen : ℕ}
    (hgen : gen = s.generation) : Carried s (s.begin operation gen) := by
  refine ⟨rfl, rfl, rfl, rfl, rfl, ?_, fun _ _ hs => hs, fun _ _ hs => hs⟩
  intro p hp
  rcases List.mem_cons.mp hp with rfl | hp
  · exact .inr hgen
  · exact .inl hp

lemma handleError_carried (s : Session Topic) (gen : ℕ) : Carried s (s.handleError gen) := by
  rcases handleError_cases s gen with heq | ⟨hgen, _, _, heq⟩
  · rw [heq]
    exact .refl s
  · rw [heq]
    exact ⟨rfl, rfl, rfl, rfl, rfl, fun _ hp => .inl hp, fun P _ hs => stamps_cancel hs,
      fun P hP hs => stamps_arm (hgen ▸ hP) hs⟩

lemma onHandshake_carried (s : Session Topic) {gen : ℕ} (hgen : gen = s.generation)
    (c : Completion) (now : ℕ) : Carried s (s.onHandshake gen c now) := by
  unfold onHandshake
  split
  · exact handleError_carried s gen
  · split
    · exact .of_eq rfl
    · have hup : Carried s
          { s with
            wsOpen := true
            connected := true
            connectedFlag := true
            reconnectDelayS := 1
            lastActivity := now
            pingTimer := arm gen s.pingTimer } :=
        ⟨rfl, rfl, rfl, rfl, rfl, fun _ hp => .inl hp, fun P hP hs => stamps_arm (hgen ▸ hP) hs,
          fun _ _ hs => hs⟩
      have hflushed := hup.trans (flushTopics_carried _)
      exact hflushed.trans (begin_carried _ .read (hgen.trans hflushed.generation.symm))

lemma onRead_carried (s : Session Topic) {gen : ℕ} (hgen : gen = s.generation) (c : Completion)
    (now : ℕ) : Carried s (s.onRead gen c now) := by
  have htouched : Carried s { s with lastActivity := now } := .of_eq rfl
  cases c with
  | failed => exact handleError_carried s gen
  | malformed => exact htouched.trans (handleError_carried _ gen)
  | ok =>
    dsimp only [onRead]
    split
    · exact htouched
    · exact htouched.trans (begin_carried _ .read hgen)

lemma onWrite_carried (s : Session Topic) (gen : ℕ) (c : Completion) :
    Carried s (s.onWrite gen c) := by
  have hwritten : Carried s { s with writeInFlight := false } := .of_eq rfl
  dsimp only [onWrite]
  split
  · exact hwritten.trans (pump_carried _)
  · exact hwritten.trans (handleError_carried _ gen)

lemma onPingTimer_carried (s : Session Topic) (gen : ℕ) (aborted : Bool) (now : ℕ) :
    Carried s (s.onPingTimer gen aborted now) := by
  unfold onPingTimer
  split
  · exact .refl s
  · rename_i hcurrent
    split
    · exact handleError_carried s gen
    · have hpinged : Carried s (if s.connected then (s.enqueueOp .ping).pump else s) := by
        split
        · exact (enqueueOp_carried s .ping).trans (pump_carried _)
        · exact .refl s
      have hgen : gen = s.generation := by
        by_contra hne
        exact hcurrent (.inr (.inl hne))
      refine ⟨hpinged.generation, hpinged.userClosed, hpinged.tasks, hpinged.posts,
        hpinged.runCalled, hpinged.pending, ?_, hpinged.reconnectTimer⟩
      intro P hP hs
      exact stamps_arm (hgen ▸ hP) (hpinged.pingTimer P hP hs)

lemma onCompletion_carried (s : Session Topic) (p : Pending) (c : Completion) (now : ℕ) :
    Carried s (s.onCompletion p c now) := by
  unfold onCompletion
  split
  · exact .refl s
  · rename_i hgen
    rw [ne_eq, not_not] at hgen
    split
    · unfold onResolve
      split
      · exact begin_carried s .connect hgen
      · exact handleError_carried s _
    · unfold onConnect
      split
      · exact begin_carried s .sslHandshake hgen
      · exact handleError_carried s _
    · unfold onSSLHandshake
      split
      · exact begin_carried s .handshake hgen
      · exact handleError_carried s _
    · exact onHandshake_carried s hgen c now
    · exact onRead_carried s hgen c now
    · exact onWrite_carried s _ c
    · exact .refl s

lemma Stamped.startConnect {s : Session Topic} (h : Stamped s) : Stamped s.startConnect := by
  rcases startConnect_cases s with ⟨_, heq⟩ | ⟨_, heq⟩
  · rw [heq]
    exact h
  · rw [heq]
    refine ⟨?_, fun w hw => (h.pingTimer w hw).trans (Nat.le_succ _),
      fun w hw => (h.reconnectTimer w hw).trans (Nat.le_succ _)⟩
    intro p hp
    rcases List.mem_cons.mp hp with rfl | hp
    · exact le_rfl
    · exact (h.pending p hp).trans (Nat.le_succ _)

/-- No task to start over is left, so further attempts leave it at that. -/
lemma StartsOnce.startConnect {s : Session Topic} (h : StartsOnce s) (hrun : s.runCalled = true)
    (htasks : s.tasks.countP startsConnect = 0) : StartsOnce s.startConnect := by
  rcases startConnect_cases s with ⟨_, heq⟩ | ⟨_, heq⟩
  · rw [heq]
    exact h
  · rw [heq]
    refine ⟨by simp [htasks], h.notPosted, ?_⟩
    intro hnot
    rw [hrun] at hnot
    cases hnot

lemma ProgressInv.dequeue {s : Session Topic} (h : ProgressInv s) {task : Task Topic}
    {rest : List (Task Topic)} (htasks : s.tasks = task :: rest) :
    ProgressInv { s with tasks := rest } := by
  refine ⟨⟨h.stamped.pending, h.stamped.pingTimer, h.stamped.reconnectTimer⟩,
    ⟨?_, h.startsOnce.notPosted, h.startsOnce.notRun⟩, ?_⟩
  · have hposted := h.startsOnce.posted
    rw [htasks, List.countP_cons] at hposted
    exact (Nat.le_add_right _ _).trans hposted
  · intro hopen
    exact (h.phase hopen).steady (.of_eq rfl)

lemma Phase.fresh_of_zero {s : Session Topic} (h : Phase s) (hzero : s.generation = 0) : Fresh s := by
  cases h with
  | fresh hf => exact hf
  | connecting hc => exact absurd hc.generation (by simp [hzero])
  | up hu => exact absurd hu.generation (by simp [hzero])
  | down hd => exact absurd hd.generation (by simp [hzero])

/-- The first attempt is posted in a session that has made none. -/
lemma StartsOnce.first {s : Session Topic} (h : StartsOnce s) {rest : List (Task Topic)}
    (htasks : s.tasks = .startConnect :: rest) :
    s.generation = 0 ∧ s.runCalled = true ∧ rest.countP startsConnect = 0 := by
  have hposted := h.posted
  rw [htasks, List.countP_cons_of_pos rfl] at hposted
  have hfirst : s.generation = 0 ∧ s.runCalled = true := by
    by_contra hnot
    rw [if_neg hnot] at hposted
    omega
  rw [if_pos hfirst] at hposted
  exact ⟨hfirst.1, hfirst.2, by omega⟩

/-- The first attempt finds the session untouched. -/
lemma ProgressInv.startConnect {s : Session Topic} (h : ProgressInv s) {rest : List (Task Topic)}
    (htasks : s.tasks = .startConnect :: rest) :
    ProgressInv { s with tasks := rest }.startConnect := by
  obtain ⟨hzero, hrun, hrest⟩ := h.startsOnce.first htasks
  have hdequeued := h.dequeue htasks
  refine ⟨hdequeued.stamped.startConnect, hdequeued.startsOnce.startConnect hrun hrest, ?_⟩
  rcases startConnect_cases { s with tasks := rest } with ⟨hclosed, heq⟩ | ⟨hopen, _⟩
  · rw [heq]
    exact hdequeued.phase
  · intro _
    have hf := (hdequeued.phase hopen).fresh_of_zero hzero
    exact .connecting (startConnect_connecting hdequeued.stamped hopen hf.scheduled hf.chains)

/-- Of a current wait, the handler either finds the session closed or starts the next attempt. -/
lemma ProgressInv.reconnectHandler_cases {s : Session Topic} {w : Wait ℕ} (h : ProgressInv s)
    (hw : w ∈ s.reconnectTimer) :
    let erased := { s with reconnectTimer := s.reconnectTimer.erase w }
    let handled := erased.onReconnectTimer w.stamp (w.status == Status.aborted)
    handled = erased ∨
    s.userClosed = true ∧ handled = { erased with reconnectScheduled := false } ∨
    s.userClosed = false ∧ Down s ∧
      handled = { erased with reconnectScheduled := false }.startConnect := by
  dsimp only
  rcases onReconnectTimer_cases { s with reconnectTimer := s.reconnectTimer.erase w } w.stamp
    (w.status == Status.aborted) with heq | ⟨hgen, hstops, heq⟩ | ⟨hgen, hopen, heq⟩
  · exact .inl heq
  · refine .inr (.inl ⟨?_, heq⟩)
    by_contra hopen
    rw [Bool.not_eq_true] at hopen
    obtain ⟨_, hfires⟩ := (h.phase hopen).reconnect_fires hw hgen
    rcases hstops with haborted | hclosed
    · exact hfires (by simpa using haborted)
    · cases hopen.symm.trans hclosed
  · exact .inr (.inr ⟨hopen, ((h.phase hopen).reconnect_fires hw hgen).1, heq⟩)

lemma ProgressInv.reconnectHandler {s : Session Topic} {w : Wait ℕ} (h : ProgressInv s)
    (hw : w ∈ s.reconnectTimer) :
    ProgressInv ({ s with reconnectTimer := s.reconnectTimer.erase w }.onReconnectTimer w.stamp
      (w.status == Status.aborted)) := by
  have htimer : ∀ v ∈ s.reconnectTimer.erase w, v.stamp ≤ s.generation :=
    fun v hv => h.stamped.reconnectTimer v (List.mem_of_mem_erase hv)
  have hphase := fun hopen => (h.phase hopen).reconnectHandler h.stamped hopen hw
  rcases h.reconnectHandler_cases hw with heq | ⟨_, heq⟩ | ⟨hopen, hdown, heq⟩
  · rw [heq] at hphase ⊢
    exact ⟨⟨h.stamped.pending, h.stamped.pingTimer, htimer⟩,
      ⟨h.startsOnce.posted, h.startsOnce.notPosted, h.startsOnce.notRun⟩, hphase⟩
  · rw [heq] at hphase ⊢
    exact ⟨⟨h.stamped.pending, h.stamped.pingTimer, htimer⟩,
      ⟨h.startsOnce.posted, h.startsOnce.notPosted, h.startsOnce.notRun⟩, hphase⟩
  · have hstarted : s.generation ≠ 0 := Nat.one_le_iff_ne_zero.mp hdown.generation
    have hrun : s.runCalled = true := by
      by_contra hnot
      exact hstarted (h.startsOnce.notRun (by simpa using hnot))
    have htasks : s.tasks.countP startsConnect = 0 := by
      have hposted := h.startsOnce.posted
      rw [if_neg (fun hzero => hstarted hzero.1)] at hposted
      omega
    have hstamped : Stamped { s with
        reconnectTimer := s.reconnectTimer.erase w, reconnectScheduled := false } :=
      ⟨h.stamped.pending, h.stamped.pingTimer, htimer⟩
    have honce : StartsOnce { s with
        reconnectTimer := s.reconnectTimer.erase w, reconnectScheduled := false } :=
      ⟨h.startsOnce.posted, h.startsOnce.notPosted, h.startsOnce.notRun⟩
    have hresult := hphase hopen
    rw [heq] at hresult ⊢
    exact ⟨hstamped.startConnect, honce.startConnect hrun htasks, fun _ => hresult⟩

lemma ProgressInv.closeByUser {s : Session Topic} (h : ProgressInv s) :
    ProgressInv s.closeByUser := by
  rcases closeByUser_cases s with ⟨_, heq⟩ | ⟨pending, hpending, heq⟩
  · rw [heq]
    exact h
  · have hping := stamps_cancel (P := (· ≤ s.generation)) h.stamped.pingTimer
    have hreconnect := stamps_cancel (P := (· ≤ s.generation)) h.stamped.reconnectTimer
    rw [heq]
    refine ⟨⟨?_, hping, hreconnect⟩,
      ⟨h.startsOnce.posted, h.startsOnce.notPosted, h.startsOnce.notRun⟩, fun hopen => by cases hopen⟩
    intro p hp
    rcases hpending p hp with hold | hnew
    · exact h.stamped.pending p hold
    · exact hnew.le

/-- A call of another thread: what it may add to the strand is no first attempt. -/
lemma ProgressInv.of_call {s s' : Session Topic} (h : ProgressInv s) (hs : Steady s s')
    (hpending : s'.pending = s.pending) (hrun : s'.runCalled = s.runCalled)
    (htasks : s'.tasks.countP startsConnect = s.tasks.countP startsConnect)
    (hposts : ∀ task ∈ s'.posts, startsConnect task = false) : ProgressInv s' := by
  refine ⟨⟨?_, ?_, ?_⟩, ⟨?_, hposts, ?_⟩, ?_⟩
  · rw [hpending, hs.generation]
    exact h.stamped.pending
  · rw [hs.pingTimer, hs.generation]
    exact h.stamped.pingTimer
  · rw [hs.reconnectTimer, hs.generation]
    exact h.stamped.reconnectTimer
  · rw [htasks, hs.generation, hrun]
    exact h.startsOnce.posted
  · rw [hrun, hs.generation]
    exact h.startsOnce.notRun
  · intro hopen
    exact (h.phase (hs.userClosed ▸ hopen)).steady hs

/-- A handler that carries the strand over keeps the invariant if it keeps the phase. -/
lemma ProgressInv.carried {s s' : Session Topic} (hstamped : Stamped s) (honce : StartsOnce s)
    (hs : Carried s s') (hphase : s.userClosed = false → Phase s') : ProgressInv s' :=
  ⟨hstamped.carried hs, honce.carried hs, fun hopen => hphase (hs.userClosed ▸ hopen)⟩

lemma ProgressInv.runTask {s : Session Topic} (h : ProgressInv s) {task : Task Topic}
    {rest : List (Task Topic)} (htasks : s.tasks = task :: rest) :
    ProgressInv ({ s with tasks := rest }.runTask task) := by
  have hd := h.dequeue htasks
  cases task with
  | startConnect => exact h.startConnect htasks
  | flushTopics =>
    exact .carried hd.stamped hd.startsOnce (flushTopics_carried _)
      fun hopen => (hd.phase hopen).steady (flushTopics_steady _)
  | unsubscribe topic =>
    dsimp only [Session.runTask]
    split
    · have hqueued : ProgressInv (enqueueOp { s with tasks := rest } (.unsubscribe topic)) :=
        hd.of_call (.of_eq rfl) rfl rfl rfl hd.startsOnce.notPosted
      exact .carried hqueued.stamped hqueued.startsOnce (pump_carried _)
        fun hopen => (hqueued.phase hopen).steady (pump_steady _)
    · exact hd
  | closeByUser => exact hd.closeByUser

lemma Phase.pingExpires {s : Session Topic} {w : Wait ℕ} (h : Phase s) (hw : w ∈ s.pingTimer)
    (hwaiting : w.status = .waiting) : Phase { s with pingTimer := expire w s.pingTimer } := by
  have hstamped := stamped_expire hw s.generation
  have hlive := live_expire hw hwaiting s.generation
  cases h with
  | fresh hf => simp [hf.pingTimer] at hw
  | connecting hc =>
    exact .connecting ⟨hc.generation, hc.connected, hc.scheduled, hc.chains, hc.currentChains,
      hc.currentOps, hstamped.trans hc.pings, hc.reconnects⟩
  | up hu =>
    exact .up ⟨hu.generation, hu.connected, hu.scheduled, hu.chains, hu.reads,
      hlive.trans hu.pings, hu.reconnects⟩
  | down hd =>
    exact .down ⟨hd.generation, hd.connected, hd.scheduled, hd.chains, hd.stamped, hd.live⟩

lemma Phase.reconnectExpires {s : Session Topic} {w : Wait ℕ} (h : Phase s)
    (hw : w ∈ s.reconnectTimer) (hwaiting : w.status = .waiting) :
    Phase { s with reconnectTimer := expire w s.reconnectTimer } := by
  have hstamped := stamped_expire hw s.generation
  have hlive := live_expire hw hwaiting s.generation
  cases h with
  | fresh hf => simp [hf.reconnectTimer] at hw
  | connecting hc =>
    exact .connecting ⟨hc.generation, hc.connected, hc.scheduled, hc.chains, hc.currentChains,
      hc.currentOps, hc.pings, hstamped.trans hc.reconnects⟩
  | up hu =>
    exact .up ⟨hu.generation, hu.connected, hu.scheduled, hu.chains, hu.reads, hu.pings,
      hstamped.trans hu.reconnects⟩
  | down hd =>
    exact .down ⟨hd.generation, hd.connected, hd.scheduled, hd.chains,
      hstamped.trans hd.stamped, hlive.trans hd.live⟩

/-- A call that leaves a task to post. -/
lemma ProgressInv.of_post {s s' : Session Topic} (h : ProgressInv s) (hs : Steady s s')
    (hpending : s'.pending = s.pending) (hrun : s'.runCalled = s.runCalled)
    (htasks : s'.tasks = s.tasks) {task : Task Topic} (hposts : s'.posts = task :: s.posts)
    (htask : startsConnect task = false) : ProgressInv s' := by
  refine h.of_call hs hpending hrun (by rw [htasks]) ?_
  intro other hother
  rw [hposts] at hother
  rcases List.mem_cons.mp hother with rfl | hother
  · exact htask
  · exact h.startsOnce.notPosted other hother

lemma ProgressInv.run {s : Session Topic} (h : ProgressInv s) (hrun : s.runCalled = false) :
    ProgressInv { s with runCalled := true, tasks := s.tasks ++ [.startConnect] } := by
  have hzero := h.startsOnce.notRun hrun
  have hposted := h.startsOnce.posted
  rw [if_neg (by simp [hrun])] at hposted
  have hnone : s.tasks.countP startsConnect = 0 := by omega
  refine ⟨⟨h.stamped.pending, h.stamped.pingTimer, h.stamped.reconnectTimer⟩,
    ⟨?_, h.startsOnce.notPosted, fun _ => hzero⟩, ?_⟩
  · simp [hzero, hnone, startsConnect]
  · intro hopen
    exact (h.phase hopen).steady (.of_eq rfl)

lemma ProgressInv.step [DecidableEq Topic] {s s' : Session Topic} {a : Action Topic}
    (h : ProgressInv s) (hs : Effect s a s') : ProgressInv s' := by
  cases hs with
  | started hrun => exact h.run hrun
  | known htopic => exact h.of_post (.of_eq rfl) rfl rfl rfl rfl rfl
  | added htopic => exact h.of_post (.of_eq rfl) rfl rfl rfl rfl rfl
  | removed htopic => exact h.of_post (.of_eq rfl) rfl rfl rfl rfl rfl
  | dropped htopic =>
    exact h.of_call (.of_eq rfl) rfl rfl rfl h.startsOnce.notPosted
  | closing => exact h.of_post (.of_eq rfl) rfl rfl rfl rfl rfl
  | @posted task htask =>
    refine h.of_call (.of_eq rfl) rfl rfl ?_ ?_
    · simp [h.startsOnce.notPosted task htask]
    · intro other hother
      exact h.startsOnce.notPosted other (List.mem_of_mem_erase hother)
  | ran htasks => exact h.runTask htasks
  | @completed p c now hp =>
    have hstamped : Stamped (s.without p) :=
      ⟨fun q hq => h.stamped.pending q (List.mem_of_mem_erase hq), h.stamped.pingTimer,
        h.stamped.reconnectTimer⟩
    exact .carried hstamped ⟨h.startsOnce.posted, h.startsOnce.notPosted, h.startsOnce.notRun⟩
      (onCompletion_carried (s.without p) p c now)
      fun hopen => (h.phase hopen).complete hopen hp
  | pingExpired hw hwaiting =>
    exact ⟨⟨h.stamped.pending, stamps_expire (P := (· ≤ s.generation)) hw h.stamped.pingTimer,
      h.stamped.reconnectTimer⟩,
      ⟨h.startsOnce.posted, h.startsOnce.notPosted, h.startsOnce.notRun⟩,
      fun hopen => (h.phase hopen).pingExpires hw hwaiting⟩
  | reconnectExpired hw hwaiting =>
    exact ⟨⟨h.stamped.pending, h.stamped.pingTimer,
      stamps_expire (P := (· ≤ s.generation)) hw h.stamped.reconnectTimer⟩,
      ⟨h.startsOnce.posted, h.startsOnce.notPosted, h.startsOnce.notRun⟩,
      fun hopen => (h.phase hopen).reconnectExpires hw hwaiting⟩
  | @pinged w now hw =>
    have hstamped : Stamped { s with pingTimer := s.pingTimer.erase w } :=
      ⟨h.stamped.pending, fun v hv => h.stamped.pingTimer v (List.mem_of_mem_erase hv),
        h.stamped.reconnectTimer⟩
    exact .carried hstamped ⟨h.startsOnce.posted, h.startsOnce.notPosted, h.startsOnce.notRun⟩
      (onPingTimer_carried _ _ _ _) fun hopen => (h.phase hopen).pingHandler hopen hw now
  | reconnected hw => exact h.reconnectHandler hw
  | broken =>
    exact h.of_call (.of_eq rfl) rfl rfl rfl h.startsOnce.notPosted

lemma progressInv_initial : ProgressInv (initial : Session Topic) where
  stamped := ⟨by simp [initial], by simp [initial], by simp [initial]⟩
  startsOnce := ⟨by simp [initial], by simp [initial], fun _ => rfl⟩
  phase _ := .fresh ⟨rfl, rfl, rfl, rfl, rfl, rfl⟩

lemma progressInv_of_run [DecidableEq Topic] {as : List (Action Topic)} {s : Session Topic}
    (h : Run step anyStep initial as s) : ProgressInv s := by
  apply Run.invariant progressInv_initial _ h
  intro s a s' hs _ hstep
  exact hs.step (effect_of_step hstep)

/-- The three ways in which something is due to move the session on. -/
def ChainPending (s : Session Topic) : Prop :=
  ∃ p ∈ s.pending, isChain p = true ∧ p.generation = s.generation

def Reading (s : Session Topic) : Prop :=
  s.connected = true ∧ reads s = 1 ∧
    ∃ w ∈ s.pingTimer, w.stamp = s.generation ∧ w.status ≠ .aborted

def ReconnectPending (s : Session Topic) : Prop :=
  s.reconnectScheduled = true ∧
    ∃ w ∈ s.reconnectTimer, w.stamp = s.generation ∧ w.status ≠ .aborted

def ExactlyOne (a b c : Prop) : Prop := a ∧ ¬ b ∧ ¬ c ∨ ¬ a ∧ b ∧ ¬ c ∨ ¬ a ∧ ¬ b ∧ c

lemma not_chainPending {s : Session Topic} (h : chains s = 0) : ¬ ChainPending s := by
  rintro ⟨p, hp, hchain, _⟩
  have hnot := List.countP_eq_zero.mp h p hp
  exact hnot hchain

lemma not_reading {s : Session Topic} (h : s.connected = false) : ¬ Reading s := by
  intro hr
  rw [hr.1] at h
  cases h

lemma not_reconnectPending {s : Session Topic} (h : s.reconnectScheduled = false) :
    ¬ ReconnectPending s := by
  intro hr
  rw [hr.1] at h
  cases h

lemma exists_live {gen : ℕ} {timer : List (Wait ℕ)} (h : live gen timer = 1) :
    ∃ w ∈ timer, w.stamp = gen ∧ w.status ≠ .aborted := by
  have hpos : 0 < live gen timer := by omega
  obtain ⟨w, hw, hlive⟩ := List.countP_pos_iff.mp hpos
  exact ⟨w, hw, by simpa using hlive⟩

/-- After its first connection attempt an open session always has exactly one completion due
that moves it on, and never runs two connect chains. -/
theorem session_progress [DecidableEq Topic] {as : List (Action Topic)} {s : Session Topic}
    (h : Run step anyStep initial as s) (hstarted : 1 ≤ s.generation)
    (hopen : s.userClosed = false) :
    ExactlyOne (ChainPending s) (Reading s) (ReconnectPending s) ∧ chains s ≤ 1 := by
  cases (progressInv_of_run h).phase hopen with
  | fresh hf => exact absurd hf.generation (by omega)
  | connecting hc =>
    have hpos : 0 < currentChains s := by rw [hc.currentChains]; exact Nat.one_pos
    obtain ⟨p, hp, hchain⟩ := List.countP_pos_iff.mp hpos
    have hpending : ChainPending s := ⟨p, hp, by simpa using hchain⟩
    exact ⟨.inl ⟨hpending, not_reading hc.connected, not_reconnectPending hc.scheduled⟩,
      hc.chains.le⟩
  | up hu =>
    have hreading : Reading s := ⟨hu.connected, hu.reads, exists_live hu.pings⟩
    exact ⟨.inr (.inl ⟨not_chainPending hu.chains, hreading, not_reconnectPending hu.scheduled⟩),
      by rw [hu.chains]; exact Nat.zero_le 1⟩
  | down hd =>
    have hreconnect : ReconnectPending s := ⟨hd.scheduled, exists_live hd.live⟩
    exact ⟨.inr (.inr ⟨not_chainPending hd.chains, not_reading hd.connected, hreconnect⟩),
      by rw [hd.chains]; exact Nat.zero_le 1⟩

/-- A session that comes up, loses its stream and waits to reconnect. -/
theorem session_progress_after_failed_read : ∃ s : Session String,
    Run step anyStep initial [.run, .task, .complete ⟨.resolve, 1⟩ .ok 0,
      .complete ⟨.connect, 1⟩ .ok 0, .complete ⟨.sslHandshake, 1⟩ .ok 0,
      .complete ⟨.handshake, 1⟩ .ok 0, .complete ⟨.read, 1⟩ .failed 5] s ∧
    (ExactlyOne (ChainPending s) (Reading s) (ReconnectPending s) ∧ chains s ≤ 1) := by
  have hrun : Run step anyStep (initial : Session String) [.run, .task,
      .complete ⟨.resolve, 1⟩ .ok 0, .complete ⟨.connect, 1⟩ .ok 0,
      .complete ⟨.sslHandshake, 1⟩ .ok 0, .complete ⟨.handshake, 1⟩ .ok 0,
      .complete ⟨.read, 1⟩ .failed 5] _ := run_of_execute rfl
  exact ⟨_, hrun, session_progress hrun le_rfl rfl⟩

end HyperliquidApi.Session
