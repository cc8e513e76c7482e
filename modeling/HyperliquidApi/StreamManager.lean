import HyperliquidApi.Json
import HyperliquidApi.SessionWork

/-!
# The stream manager

Any thread may ask for feeds; the first call to come creates the session and the thread that runs
its handlers. A subscribing call first makes sure of the session, under a lock, and reaches it
afterwards, so other calls come in between.
-/
namespace HyperliquidApi.StreamManager
open Timers Runs

inductive Subscription
  | bbo (coin : String)
  | orderUpdates (user : String)
  | userFills (user : String)
  deriving DecidableEq

namespace Subscription

def toJson : Subscription → Json
  | bbo coin => .object [("type", .string "bbo"), ("coin", .string coin)]
  | orderUpdates user => .object [("type", .string "orderUpdates"), ("user", .string user)]
  | userFills user => .object [("type", .string "userFills"), ("user", .string user)]

/-- Different feeds are different channels to the session, which compares their JSON. -/
lemma toJson_inj {a b : Subscription} : a.toJson = b.toJson ↔ a = b := by
  cases a <;> cases b <;> simp [toJson]

/-- Quote feeds are the only ones that can be given up. -/
def ofAccount : Subscription → Bool
  | bbo _ => false
  | orderUpdates _ | userFills _ => true

end Subscription

/-- The thread that runs the handlers; it ends when nothing is left to wait for. -/
inductive IoThread
  | unstarted
  | running
  | finished
  deriving DecidableEq

/-- The manager's members, and `calls`, the feeds of the calls that have made sure of the session
and have yet to reach it. -/
structure Manager where
  session : Option (Session Subscription)
  running : Bool
  ioThread : IoThread
  calls : List Subscription
  destroyed : Bool

inductive Action
  | start
  | subscribe (feed : Subscription)
  | reach (feed : Subscription)
  | unsubscribeBbo (coin : String)
  | post (task : Task Subscription)
  | handler (a : Session.Action Subscription)
  | environment (a : Session.Action Subscription)
  | runReturns
  | destroy

def isHandler : Session.Action Subscription → Bool
  | .task | .complete _ _ _ | .pingTimer _ _ | .reconnectTimer _ => true
  | _ => false

def isEnvironment : Session.Action Subscription → Bool
  | .pingExpires _ | .reconnectExpires _ | .drop => true
  | _ => false

namespace Manager

def initial : Manager :=
  { session := none, running := false, ioThread := .unstarted, calls := [], destroyed := false }

/-- Runs under the lock: the session is created and its first connection attempt posted before any
other call gets to see it. -/
def ensureSession (m : Manager) : Manager :=
  if m.session.isSome then m
  else
    let created := { m with session := Session.step Session.initial .run }
    if m.running then created else { created with running := true, ioThread := .running }

def onSession (m : Manager) (a : Session.Action Subscription) : Option Manager :=
  match m.session with
  | none => none
  | some s => (Session.step s a).map fun s' => { m with session := some s' }

def isConnected (m : Manager) : Bool :=
  match m.session with
  | none => false
  | some s => s.connectedFlag

/-- The destructor closes the session and stops the thread; nothing is called after it. -/
def step (m : Manager) : Action → Option Manager
  | .start => if m.destroyed then none else some m.ensureSession
  | .subscribe feed =>
    if m.destroyed then none
    else some { m.ensureSession with calls := feed :: m.ensureSession.calls }
  | .reach feed =>
    if feed ∈ m.calls then { m with calls := m.calls.erase feed }.onSession (.subscribe feed)
    else none
  | .unsubscribeBbo coin =>
    if m.destroyed then none
    else if m.session.isSome then m.onSession (.unsubscribe (.bbo coin))
    else some m
  | .post task => m.onSession (.post task)
  | .handler a => if m.ioThread = .running ∧ isHandler a then m.onSession a else none
  | .environment a => if isEnvironment a then m.onSession a else none
  | .runReturns =>
    match m.session with
    | none => none
    | some s =>
      if m.ioThread = .running ∧ (m.destroyed ∨ ¬ s.Working) then
        some { m with ioThread := .finished }
      else none
  | .destroy =>
    if m.destroyed then none
    else if m.session.isSome then { m with destroyed := true }.onSession .close
    else some { m with destroyed := true }

lemma onSession_some {m m' : Manager} {a : Session.Action Subscription}
    (h : m.onSession a = some m') : ∃ s s', m.session = some s ∧ Session.step s a = some s' ∧
      m' = { m with session := some s' } := by
  unfold onSession at h
  split at h
  · cases h
  · rename_i s hs
    obtain ⟨s', hstep, rfl⟩ := Option.map_eq_some_iff.mp h
    exact ⟨s, s', hs, hstep, rfl⟩

lemma ensureSession_some {m : Manager} (h : m.session.isSome = true) : m.ensureSession = m := by
  simp [ensureSession, h]

lemma ensureSession_none {m : Manager} (h : m.session = none) :
    m.ensureSession.session = Session.step Session.initial .run ∧
      m.ensureSession.running = true ∧ m.ensureSession.destroyed = m.destroyed ∧
      m.ensureSession.ioThread = if m.running then m.ioThread else .running := by
  unfold ensureSession
  rw [if_neg (by simp [h])]
  dsimp only
  split
  · rename_i hrunning
    exact ⟨rfl, hrunning, rfl, rfl⟩
  · exact ⟨rfl, rfl, rfl, rfl⟩

end Manager

def sessionAction : Action → Option (Session.Action Subscription)
  | .reach feed => some (.subscribe feed)
  | .unsubscribeBbo coin => some (.unsubscribe (.bbo coin))
  | .post task => some (.post task)
  | .handler a => some a
  | .environment a => some a
  | .destroy => some .close
  | .start | .subscribe _ | .runReturns => none

/-- Handlers and the environment make no calls. -/
def Allowed : Action → Prop
  | .handler a => isHandler a = true
  | .environment a => isEnvironment a = true
  | _ => True

lemma Allowed.not_run {a : Action} {b : Session.Action Subscription} (ha : Allowed a)
    (hb : sessionAction a = some b) : b ≠ .run := by
  rintro rfl
  cases a <;> simp_all [sessionAction, Allowed, isHandler, isEnvironment]

lemma Allowed.of_close {a : Action} (ha : Allowed a) (hb : sessionAction a = some .close) :
    a = .destroy := by
  cases a <;> simp_all [sessionAction, Allowed, isHandler, isEnvironment]

lemma Allowed.of_subscribe {a : Action} {b : Session.Action Subscription} (ha : Allowed a)
    (hb : sessionAction a = some b) (feed : Subscription) :
    b = .subscribe feed ↔ a = .reach feed := by
  constructor
  · rintro rfl
    cases a <;> simp_all [sessionAction, Allowed, isHandler, isEnvironment]
  · rintro rfl
    exact (Option.some.inj hb).symm

lemma Allowed.of_unsubscribe {a : Action} {feed : Subscription} (ha : Allowed a)
    (hb : sessionAction a = some (.unsubscribe feed)) : feed.ofAccount = false := by
  cases a with
  | unsubscribeBbo coin =>
    obtain rfl : Subscription.bbo coin = feed := by simpa [sessionAction] using hb
    rfl
  | _ => simp_all [sessionAction, Allowed, isHandler, isEnvironment]

/-- What a step does to the session: there is none and none is created, it is created, or it takes
the action's step, if the action has one. -/
inductive Effect (m : Manager) (a : Action) (m' : Manager) : Prop
  | absent (h : m.session = none) (h' : m'.session = none) (hthread : m'.ioThread = m.ioThread)
      (hrunning : m'.running = m.running) (hreach : ∀ feed, a ≠ .reach feed)
  | created (h : m.session = none) (h' : m'.session = Session.step Session.initial .run)
      (hnone : sessionAction a = none) (hrunning : m'.running = true) (hdestroyed : m'.destroyed = m.destroyed)
      (hthread : m'.ioThread = if m.running then m.ioThread else .running)
  | kept {s : Session Subscription} (h : m.session = some s) (h' : m'.session = some s)
      (hnone : sessionAction a = none) (hrunning : m'.running = m.running)
      (hdestroyed : m'.destroyed = m.destroyed)
      (hthread : m'.ioThread = m.ioThread ∨ m'.ioThread = .finished ∧ (m.destroyed ∨ ¬ s.Working))
  | moved {s s' : Session Subscription} {b : Session.Action Subscription} (h : m.session = some s)
      (h' : m'.session = some s') (hsome : sessionAction a = some b)
      (hstep : Session.step s b = some s') (hrunning : m'.running = m.running)
      (hdestroyed : m.destroyed → m'.destroyed) (hclose : a = .destroy → m'.destroyed)
      (hthread : m'.ioThread = m.ioThread) (hallowed : Allowed a)

lemma ensure_effect {m m' : Manager} {a : Action} (ha : sessionAction a = none)
    (hsession : m'.session = m.ensureSession.session)
    (hrunning : m'.running = m.ensureSession.running)
    (hthread : m'.ioThread = m.ensureSession.ioThread)
    (hdestroyed : m'.destroyed = m.ensureSession.destroyed) : Effect m a m' := by
  cases hs : m.session with
  | none =>
    obtain ⟨hcreated, hran, hkept, hstarted⟩ := Manager.ensureSession_none hs
    exact .created hs (hsession.trans hcreated) ha (hrunning.trans hran) (hdestroyed.trans hkept)
      (hthread.trans hstarted)
  | some s =>
    rw [Manager.ensureSession_some (by simp [hs])] at hsession hrunning hthread hdestroyed
    exact .kept hs (hsession.trans hs) ha hrunning hdestroyed (.inl hthread)

lemma session_effect {m t m' : Manager} {a : Action} {b : Session.Action Subscription}
    (h : t.onSession b = some m') (hb : sessionAction a = some b) (ha : Allowed a)
    (hsession : t.session = m.session) (hrunning : t.running = m.running)
    (hthread : t.ioThread = m.ioThread) (hdestroyed : m.destroyed → t.destroyed)
    (hclose : a = .destroy → t.destroyed) : Effect m a m' := by
  obtain ⟨s, s', hs, hstep, rfl⟩ := Manager.onSession_some h
  exact .moved (hsession.symm.trans hs) rfl hb hstep hrunning hdestroyed hclose hthread ha

lemma effect_of_step {m m' : Manager} {a : Action} (h : m.step a = some m') : Effect m a m' := by
  cases a with
  | start =>
    simp only [Manager.step] at h
    split at h
    · cases h
    · obtain rfl := Option.some.inj h
      exact ensure_effect rfl rfl rfl rfl rfl
  | subscribe feed =>
    simp only [Manager.step] at h
    split at h
    · cases h
    · obtain rfl := Option.some.inj h
      exact ensure_effect rfl rfl rfl rfl rfl
  | reach feed =>
    simp only [Manager.step] at h
    split at h
    · exact session_effect h rfl trivial rfl rfl rfl id (by simp)
    · cases h
  | unsubscribeBbo coin =>
    simp only [Manager.step] at h
    split at h
    · cases h
    · split at h
      · exact session_effect h rfl trivial rfl rfl rfl id (by simp)
      · rename_i hnone
        obtain rfl := Option.some.inj h
        exact .absent (by simpa using hnone) (by simpa using hnone) rfl rfl (by simp)
  | post task => exact session_effect h rfl trivial rfl rfl rfl id (by simp)
  | handler b =>
    simp only [Manager.step] at h
    split at h
    · rename_i hb
      exact session_effect h rfl hb.2 rfl rfl rfl id (by simp)
    · cases h
  | environment b =>
    simp only [Manager.step] at h
    split at h
    · rename_i hb
      exact session_effect h rfl hb rfl rfl rfl id (by simp)
    · cases h
  | runReturns =>
    simp only [Manager.step] at h
    split at h
    · cases h
    · rename_i s hs
      split at h
      · rename_i hends
        obtain rfl := Option.some.inj h
        exact .kept hs hs rfl rfl rfl (.inr ⟨rfl, hends.2⟩)
      · cases h
  | destroy =>
    simp only [Manager.step] at h
    split at h
    · cases h
    · split at h
      · exact session_effect h rfl trivial rfl rfl rfl (fun _ => rfl) (fun _ => rfl)
      · rename_i hnone
        obtain rfl := Option.some.inj h
        exact .absent (by simpa using hnone) (by simpa using hnone) rfl rfl (by simp)

def noteSession (log : List (Session.Action Subscription)) (m : Manager) (a : Action)
    (m' : Manager) : List (Session.Action Subscription) :=
  if m.session.isSome then log ++ (sessionAction a).toList
  else if m'.session.isSome then [.run]
  else log

/-- The session's history is a run of it that begins with the one call of `run`. -/
structure Refines (m : Manager) (log : List (Session.Action Subscription)) : Prop where
  absent : m.session = none → log = []
  run : ∀ s, m.session = some s → Run Session.step anyStep Session.initial log s
  once : m.session.isSome = true → ∃ rest, log = .run :: rest ∧ .run ∉ rest

lemma Refines.step {m m' : Manager} {a : Action} {log : List (Session.Action Subscription)}
    (h : Refines m log) (heffect : Effect m a m') : Refines m' (noteSession log m a m') := by
  cases heffect with
  | absent hs hs' _ _ _ =>
    have hlog : noteSession log m a m' = log := by simp [noteSession, hs, hs']
    rw [hlog]
    refine ⟨fun _ => h.absent hs, ?_, ?_⟩
    · intro s hsome
      cases hs'.symm.trans hsome
    · simp [hs']
  | created hs hs' _ _ _ _ =>
    have hlog : noteSession log m a m' = [.run] := by simp [noteSession, hs, hs', Session.step,
      Session.initial]
    rw [hlog]
    refine ⟨?_, ?_, fun _ => ⟨[], rfl, by simp⟩⟩
    · intro hnone
      cases hs'.symm.trans hnone
    · intro s hsome
      have hrun : Run Session.step anyStep (Session.initial : Session Subscription) ([] ++ [.run]) s :=
        .snoc .nil trivial (hs'.symm.trans hsome)
      exact hrun
  | @kept s hs hs' hnone _ _ _ =>
    have hlog : noteSession log m a m' = log := by simp [noteSession, hs, hnone]
    rw [hlog]
    refine ⟨?_, ?_, fun _ => h.once (by simp [hs])⟩
    · intro hsome
      cases hs'.symm.trans hsome
    · intro t ht
      obtain rfl := Option.some.inj (hs'.symm.trans ht)
      exact h.run s hs
  | @moved s s' b hs hs' hsome hstep _ _ _ _ hallowed =>
    have hlog : noteSession log m a m' = log ++ [b] := by simp [noteSession, hs, hsome]
    rw [hlog]
    obtain ⟨rest, rfl, hrest⟩ := h.once (by simp [hs])
    refine ⟨?_, ?_, fun _ => ⟨rest ++ [b], rfl, ?_⟩⟩
    · intro hnone
      cases hs'.symm.trans hnone
    · intro t ht
      obtain rfl := Option.some.inj (hs'.symm.trans ht)
      exact (h.run s hs).snoc trivial hstep
    · rw [List.mem_append, List.mem_singleton, not_or]
      exact ⟨hrest, (hallowed.not_run hsome).symm⟩

/-- However calls, handlers and the destructor interleave, a manager has at most one session, its
`run` is called once and first, and what happens to it afterwards is a run of the session. -/
theorem manager_refines_session {as : List Action} {m : Manager}
    {log : List (Session.Action Subscription)}
    (h : Run (watched Manager.step noteSession) anyStep (Manager.initial, []) as (m, log)) :
    (m.session = none ↔ log = []) ∧
    ∀ s, m.session = some s → Run Session.step anyStep Session.initial log s ∧
      ∃ rest, log = .run :: rest ∧ .run ∉ rest := by
  have hinv : Refines m log := by
    apply h.invariant (P := fun t => Refines t.1 t.2)
    · exact ⟨fun _ => rfl, fun s hs => (by cases hs), fun hs => (by cases hs)⟩
    · rintro ⟨t, l⟩ a ⟨t', l'⟩ hrefines _ hstep
      obtain ⟨hnext, hnote⟩ := watched_eq_some hstep
      dsimp only at hnote ⊢
      rw [hnote]
      exact hrefines.step (effect_of_step hnext)
  refine ⟨⟨hinv.absent, ?_⟩, fun s hs => ⟨hinv.run s hs, hinv.once (by simp [hs])⟩⟩
  intro hnil
  by_contra hne
  obtain ⟨rest, hcons, _⟩ := hinv.once (Option.isSome_iff_ne_none.mpr hne)
  cases hnil.symm.trans hcons

/-- Two calls come in one after the other, and the second reaches the session first. -/
def twoFeeds : List Action :=
  [.subscribe (.userFills "0xa"), .subscribe (.bbo "ETH"), .reach (.bbo "ETH"), .handler .task,
    .reach (.userFills "0xa"), .handler (.complete ⟨.resolve, 1⟩ .ok 0),
    .handler (.complete ⟨.connect, 1⟩ .ok 0), .handler (.complete ⟨.sslHandshake, 1⟩ .ok 0),
    .handler (.complete ⟨.handshake, 1⟩ .ok 0), .post .flushTopics, .post .flushTopics,
    .handler .task, .handler (.complete ⟨.write, 1⟩ .ok 0), .handler .task,
    .handler (.complete ⟨.write, 1⟩ .ok 0)]

theorem manager_refines_session_of_two_calls :
    ∃ (m : Manager) (log : List (Session.Action Subscription)) (s : Session Subscription),
    Run (watched Manager.step noteSession) anyStep (Manager.initial, []) twoFeeds (m, log) ∧
    m.session = some s ∧ Run Session.step anyStep Session.initial log s ∧
    ∃ rest, log = .run :: rest ∧ .run ∉ rest := by
  have hrun : Run (watched Manager.step noteSession) anyStep (Manager.initial, []) twoFeeds (_, _) :=
    run_of_execute rfl
  exact ⟨_, _, _, hrun, rfl, (manager_refines_session hrun).2 _ rfl⟩

/-- Once there is a session its thread runs, and until the manager is destroyed it always has
something to wait for. -/
structure ThreadInv (m : Manager) : Prop where
  absent : m.session = none → m.running = false ∧ m.ioThread = .unstarted
  running : m.session.isSome = true → m.running = true
  working : ∀ s, m.session = some s → m.destroyed = false →
    m.ioThread = .running ∧ s.WorkInv

lemma ThreadInv.step {m m' : Manager} {a : Action} (h : ThreadInv m) (heffect : Effect m a m') :
    ThreadInv m' := by
  cases heffect with
  | absent hs hs' hthread hrunning _ =>
    refine ⟨?_, ?_, ?_⟩
    · intro _
      rw [hrunning, hthread]
      exact h.absent hs
    · simp [hs']
    · intro s hsome
      cases hs'.symm.trans hsome
  | created hs hs' _ hrunning hdestroyed hthread =>
    refine ⟨?_, fun _ => hrunning, ?_⟩
    · intro hnone
      cases hs'.symm.trans hnone
    · intro s hsome _
      rw [hthread, (h.absent hs).1]
      exact ⟨rfl, Session.workInv_of_start (hs'.symm.trans hsome)⟩
  | @kept s hs hs' hnone hrunning hdestroyed hthread =>
    refine ⟨?_, ?_, ?_⟩
    · intro hsome
      cases hs'.symm.trans hsome
    · intro _
      rw [hrunning]
      exact h.running (by simp [hs])
    · intro t ht hkept
      obtain rfl := Option.some.inj (hs'.symm.trans ht)
      obtain ⟨hran, hwork⟩ := h.working s hs (hdestroyed ▸ hkept)
      refine ⟨?_, hwork⟩
      rcases hthread with hsame | ⟨_, hends⟩
      · rw [hsame, hran]
      · rcases hends with hgone | hidle
        · cases hgone.symm.trans (hdestroyed ▸ hkept)
        · exact absurd hwork.working hidle
  | @moved s s' b hs hs' hsome hstep hrunning hdestroyed hclose hthread hallowed =>
    refine ⟨?_, ?_, ?_⟩
    · intro hnone
      cases hs'.symm.trans hnone
    · intro _
      rw [hrunning]
      exact h.running (by simp [hs])
    · intro t ht hkept
      obtain rfl := Option.some.inj (hs'.symm.trans ht)
      have hbefore : m.destroyed = false := by
        by_contra hgone
        cases (hdestroyed (by simpa using hgone)).symm.trans hkept
      have hopen : b ≠ .close := by
        rintro rfl
        cases (hclose (hallowed.of_close hsome)).symm.trans hkept
      obtain ⟨hran, hwork⟩ := h.working s hs hbefore
      exact ⟨hthread.trans hran, hwork.step hopen (Session.effect_of_step hstep)⟩

/-- From the first call on, until the manager is destroyed, its one io thread runs and never runs
out of work: `run` does not return and leave the feeds dead. -/
theorem io_thread_keeps_running {as : List Action} {m : Manager}
    (h : Run Manager.step anyStep Manager.initial as m) :
    (m.session = none → m.ioThread = .unstarted) ∧
    ∀ s, m.session = some s → m.running = true ∧
      (m.destroyed = false → m.ioThread = .running ∧ s.Working) := by
  have hinv : ThreadInv m := by
    apply h.invariant (P := ThreadInv)
    · exact ⟨fun _ => ⟨rfl, rfl⟩, fun hs => (by cases hs), fun s hs => (by cases hs)⟩
    · intro t a t' ht _ hstep
      exact ht.step (effect_of_step hstep)
  refine ⟨fun hnone => (hinv.absent hnone).2, ?_⟩
  intro s hs
  refine ⟨hinv.running (by simp [hs]), ?_⟩
  intro hkept
  obtain ⟨hran, hwork⟩ := hinv.working s hs hkept
  exact ⟨hran, hwork.working⟩

/-- After both subscribes have been written the thread waits for the next message. -/
theorem io_thread_keeps_running_when_quiet : ∃ (m : Manager) (s : Session Subscription),
    Run Manager.step anyStep Manager.initial twoFeeds m ∧ m.session = some s ∧
    m.ioThread = .running ∧ s.Working := by
  have hrun : Run Manager.step anyStep Manager.initial twoFeeds _ := run_of_execute rfl
  exact ⟨_, _, hrun, rfl, ((io_thread_keeps_running hrun).2 _ rfl).2 rfl⟩

/-- The session's run never gives up an account feed, and asks for it when a call reaches it. -/
lemma session_keeps {feed : Subscription} (hfeed : feed.ofAccount = true) {as : List Action}
    {m : Manager} (h : Run Manager.step anyStep Manager.initial as m) :
    (m.session = none → .reach feed ∉ as) ∧
    ∀ s, m.session = some s → ∃ log, Run Session.step (Session.Keeps feed) Session.initial log s ∧
      (.subscribe feed ∈ log ↔ .reach feed ∈ as) := by
  induction h with
  | nil => exact ⟨by simp, fun s hs => (by cases hs)⟩
  | @snoc as m m' a _ _ next ih =>
    have happend : Action.reach feed ∈ as ++ [a] ↔ .reach feed ∈ as ∨ a = .reach feed := by
      rw [List.mem_append, List.mem_singleton, eq_comm]
    rw [happend]
    cases effect_of_step next with
    | absent hs hs' _ _ hreach =>
      refine ⟨fun _ => not_or.mpr ⟨ih.1 hs, hreach feed⟩, ?_⟩
      intro s hsome
      cases hs'.symm.trans hsome
    | created hs hs' hnone _ _ _ =>
      refine ⟨fun hsome => (by cases hs'.symm.trans hsome), ?_⟩
      intro s hsome
      have hrun : Run Session.step (Session.Keeps feed) Session.initial ([] ++ [.run]) s :=
        .snoc .nil (by simp [Session.Keeps]) (hs'.symm.trans hsome)
      refine ⟨_, hrun, ?_⟩
      have hother : a ≠ .reach feed := by
        rintro rfl
        cases hnone
      simp [ih.1 hs, hother]
    | @kept s hs hs' hnone _ _ _ =>
      refine ⟨fun hsome => (by cases hs'.symm.trans hsome), ?_⟩
      intro t ht
      obtain rfl := Option.some.inj (hs'.symm.trans ht)
      obtain ⟨log, hrun, hasked⟩ := ih.2 s hs
      have hother : a ≠ .reach feed := by
        rintro rfl
        cases hnone
      exact ⟨log, hrun, by simp [hasked, hother]⟩
    | @moved s s' b hs hs' hsome hstep _ _ _ _ hallowed =>
      refine ⟨fun hnone => (by cases hs'.symm.trans hnone), ?_⟩
      intro t ht
      obtain rfl := Option.some.inj (hs'.symm.trans ht)
      obtain ⟨log, hrun, hasked⟩ := ih.2 s hs
      have hkeeps : b ≠ .unsubscribe feed := by
        rintro rfl
        cases hfeed.symm.trans (hallowed.of_unsubscribe hsome)
      refine ⟨log ++ [b], hrun.snoc hkeeps hstep, ?_⟩
      rw [List.mem_append, List.mem_singleton, hasked, ← hallowed.of_subscribe hsome feed, eq_comm]

/-- Whatever calls are made, the order and fill feeds of an account are on no connection subscribed
twice or unsubscribed, and once nothing is left to do, each is live if and only if a call asked for
it. -/
theorem account_feeds_subscribed_once {feed : Subscription} (hfeed : feed.ofAccount = true)
    {as : List Action} {m : Manager} (h : Run Manager.step anyStep Manager.initial as m)
    {s : Session Subscription} (hs : m.session = some s) :
    (∀ gen, (Session.onConnection gen s.wire).count (.subscribe feed) ≤ 1 ∧
      .unsubscribe feed ∉ Session.onConnection gen s.wire) ∧
    (s.Quiescent → (feed ∈ Session.replay s.written ↔ .reach feed ∈ as)) := by
  obtain ⟨log, hrun, hasked⟩ := (session_keeps hfeed h).2 s hs
  have hinv := Session.keptInv_of_run hrun
  refine ⟨hinv.kept.once.written, ?_⟩
  intro hquiet
  rw [hinv.live hquiet, Session.mem_topics_of_keeps hrun, hasked]

/-- The fill feed is live although a quote feed was subscribed before it. -/
theorem account_feeds_subscribed_once_of_two : ∃ (m : Manager) (s : Session Subscription),
    Run Manager.step anyStep Manager.initial twoFeeds m ∧ m.session = some s ∧
    Subscription.userFills "0xa" ∈ Session.replay s.written := by
  have hrun : Run Manager.step anyStep Manager.initial twoFeeds _ := run_of_execute rfl
  have hfeed := @account_feeds_subscribed_once (.userFills "0xa") rfl _ _ hrun _ rfl
  exact ⟨_, _, hrun, rfl, (hfeed.2 ⟨rfl, rfl, rfl, rfl, rfl⟩).mpr (by simp [twoFeeds])⟩

end HyperliquidApi.StreamManager
