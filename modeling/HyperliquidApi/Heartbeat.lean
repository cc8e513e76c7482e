import HyperliquidApi.Backoff
import HyperliquidApi.SessionWork

/-!
# The heartbeat in time

Time passes between the steps of a session. The clock is not under the program's control: a ping
timer does not expire early, and its handler has run at most `latency` milliseconds after the
expiry. From this follow how often the venue is pinged and how long silence can last.
-/
namespace HyperliquidApi.Session
open Timers Runs

variable {Topic : Type*}

def pingIntervalMs : ℕ := 30000

/-- The silence that the ping handler takes for a dead connection. -/
def silenceMs : ℕ := (activityTimeoutS + 1) * 1000

lemma silent_iff (now lastActivity : ℕ) (h : lastActivity ≤ now) :
    activityTimeoutS < (now - lastActivity) / 1000 ↔ lastActivity + silenceMs ≤ now := by
  have htimeout : activityTimeoutS = 75 := rfl
  have hsilence : silenceMs = 76000 := rfl
  omega

/-- A session and the steady clock, with the times at which the ping timer was last armed and a
ping was last queued, for which a handshake counts. -/
structure Timed (Topic : Type*) where
  session : Session Topic
  now : ℕ
  armedAt : ℕ
  lastPing : ℕ

inductive TimedAction (Topic : Type*)
  | tick (ms : ℕ)
  | act (a : Action Topic)

/-- The actions whose handlers arm the ping timer. -/
def Arms (s : Session Topic) : Action Topic → Prop
  | .complete p c _ => p = ⟨.handshake, s.generation⟩ ∧ c = .ok ∧ s.userClosed = false
  | .pingTimer w now =>
    ¬ (w.status = .aborted ∨ w.stamp ≠ s.generation ∨ s.userClosed = true) ∧
      ¬ (s.connected = true ∧ activityTimeoutS < (now - s.lastActivity) / 1000)
  | _ => False

instance (s : Session Topic) (a : Action Topic) : Decidable (Arms s a) :=
  match a with
  | .complete _ _ _ => inferInstanceAs (Decidable (_ ∧ _ ∧ _))
  | .pingTimer _ _ => inferInstanceAs (Decidable (¬ _ ∧ ¬ _))
  | .run | .subscribe _ | .unsubscribe _ | .close | .post _ | .task | .pingExpires _
  | .reconnectExpires _ | .reconnectTimer _ | .drop => isFalse id

/-- The ping timer expires no earlier than its interval. -/
def expires (armedAt now : ℕ) : Action Topic → Bool
  | .pingExpires _ => armedAt + pingIntervalMs ≤ now
  | _ => true

lemma Phase.of_up {s : Session Topic} (h : Phase s) (hup : s.connected = true) : Up s := by
  cases h with
  | fresh hf => cases hf.connected.symm.trans hup
  | connecting hc => cases hc.connected.symm.trans hup
  | up hu => exact hu
  | down hd => cases hd.connected.symm.trans hup

/-- On a connection that is up, the timer is armed exactly when a ping is queued. -/
lemma arms_iff_pings {s : Session Topic} (hup : s.connected = true) (w : Wait ℕ) (now : ℕ) :
    Arms s (.pingTimer w now) ↔ .ping ∈ enqueues s (.pingTimer w now) := by
  have hpings : Arms s (.pingTimer w now) ↔ Pings s w.stamp (w.status == .aborted) now := by
    simp [Arms, Pings, hup]
  rw [hpings, enqueues]
  split <;> simp_all

lemma ping_mem_enqueues {s : Session Topic} {a : Action Topic} (h : .ping ∈ enqueues s a) :
    ∃ w now, a = .pingTimer w now := by
  cases a with
  | pingTimer w now => exact ⟨w, now, rfl⟩
  | task =>
    dsimp only [enqueues] at h
    split at h
    · split at h <;> simp at h
    · split at h <;> simp at h
    · simp at h
  | complete p c now =>
    dsimp only [enqueues] at h
    split at h <;> simp at h
  | _ => simp [enqueues] at h

/-- The handler that pings has found the connection active. -/
lemma Arms.active {s : Session Topic} {w : Wait ℕ} {now : ℕ} (h : Arms s (.pingTimer w now))
    (hup : s.connected = true) (hpast : s.lastActivity ≤ now) :
    now < s.lastActivity + silenceMs := by
  by_contra hlong
  exact h.2 ⟨hup, (silent_iff now s.lastActivity hpast).mpr (not_lt.mp hlong)⟩

/-- The handler leaves an active connection alone. -/
lemma onPingTimer_up {s : Session Topic} {gen now : ℕ} {aborted : Bool} (hup : s.connected = true)
    (hactive : ¬ activityTimeoutS < (now - s.lastActivity) / 1000) :
    (s.onPingTimer gen aborted now).connected = true := by
  unfold onPingTimer
  split
  · exact hup
  · rw [if_neg (fun h => hactive h.2)]
    exact (pump_steady (s.enqueueOp .ping)).connected.trans hup

/-- On an open connection the last ping armed the timer, and then the connection was not silent. -/
structure Beating (latency : ℕ) (t : Timed Topic) : Prop where
  progress : ProgressInv t.session
  past : t.session.lastActivity ≤ t.now
  beat : t.session.userClosed = false → t.session.connected = true →
    t.lastPing = t.armedAt ∧ t.now ≤ t.armedAt + pingIntervalMs + latency ∧
      t.armedAt < t.session.lastActivity + silenceMs

lemma Beating.tick {latency ms : ℕ} {t : Timed Topic} (h : Beating latency t)
    (hdue : live t.session.generation t.session.pingTimer = 0 ∨
      t.now + ms ≤ t.armedAt + pingIntervalMs + latency) :
    Beating latency { t with now := t.now + ms } := by
  refine ⟨h.progress, h.past.trans (Nat.le_add_right _ _), ?_⟩
  intro hopen hup
  obtain ⟨hping, _, hactive⟩ := h.beat hopen hup
  refine ⟨hping, ?_, hactive⟩
  rcases hdue with hnone | hle
  · have hlive := ((h.progress.phase hopen).of_up hup).pings
    omega
  · exact hle

section
variable [DecidableEq Topic]

def noteArmed (armedAt now : ℕ) (s : Session Topic) (a : Action Topic) : ℕ :=
  if Arms s a then now else armedAt

def notePing (lastPing now : ℕ) (s : Session Topic) (a : Action Topic) (s' : Session Topic) : ℕ :=
  if .ping ∈ enqueues s a ∨ s.connected = false ∧ s'.connected = true then now else lastPing

/-- Time does not pass beyond the point at which the handler of a running wait is due. -/
def timedStep (latency : ℕ) (t : Timed Topic) : TimedAction Topic → Option (Timed Topic)
  | .tick ms =>
    if live t.session.generation t.session.pingTimer = 0 ∨
        t.now + ms ≤ t.armedAt + pingIntervalMs + latency then
      some { t with now := t.now + ms }
    else none
  | .act a =>
    if At t.now a then
      if expires t.armedAt t.now a then
        (step t.session a).map fun s' =>
          { session := s'
            now := t.now
            armedAt := noteArmed t.armedAt t.now t.session a
            lastPing := notePing t.lastPing t.now t.session a s' }
      else none
    else none

lemma timedStep_act {latency : ℕ} {t t' : Timed Topic} {a : Action Topic}
    (h : timedStep latency t (.act a) = some t') : At t.now a ∧ ∃ s', step t.session a = some s' ∧
      t' = { session := s'
             now := t.now
             armedAt := noteArmed t.armedAt t.now t.session a
             lastPing := notePing t.lastPing t.now t.session a s' } := by
  simp only [timedStep] at h
  split at h
  · rename_i hat
    split at h
    · obtain ⟨s', hs', rfl⟩ := Option.map_eq_some_iff.mp h
      exact ⟨hat, s', hs', rfl⟩
    · cases h
  · cases h

def timedInitial (now : ℕ) : Timed Topic :=
  { session := initial, now := now, armedAt := now, lastPing := now }

/-- A step on a connection that is up and stays up. -/
lemma Beating.act_up {latency : ℕ} {t : Timed Topic} {a : Action Topic} {s' : Session Topic}
    (h : Beating latency t) (hopen : t.session.userClosed = false)
    (hup : t.session.connected = true) (hat : At t.now a) (heffect : Effect t.session a s')
    (hlast : s'.lastActivity = t.session.lastActivity ∨ s'.lastActivity = t.now) :
    notePing t.lastPing t.now t.session a s' = noteArmed t.armedAt t.now t.session a ∧
      t.now ≤ noteArmed t.armedAt t.now t.session a + pingIntervalMs + latency ∧
      noteArmed t.armedAt t.now t.session a < s'.lastActivity + silenceMs := by
  obtain ⟨hping, hdue, hactive⟩ := h.beat hopen hup
  have hpast := h.past
  by_cases harms : Arms t.session a
  · have harmed : noteArmed t.armedAt t.now t.session a = t.now := if_pos harms
    cases a with
    | complete p c now =>
      obtain ⟨rfl, _, _⟩ := harms
      cases heffect with
      | completed hp =>
        have hdown := ((h.progress.phase hopen).of_chain hp rfl).connected
        cases hdown.symm.trans hup
    | pingTimer w now =>
      obtain rfl : now = t.now := hat
      have hqueued := (arms_iff_pings hup w t.now).mp harms
      have hpinged : notePing t.lastPing t.now t.session (.pingTimer w t.now) s' = t.now :=
        if_pos (.inl hqueued)
      have hquick := harms.active hup hpast
      rw [harmed, hpinged]
      refine ⟨rfl, by omega, ?_⟩
      rcases hlast with hsame | hnow
      · rwa [hsame]
      · rw [hnow]
        omega
    | _ => exact absurd harms id
  · have harmed : noteArmed t.armedAt t.now t.session a = t.armedAt := if_neg harms
    have hquiet : notePing t.lastPing t.now t.session a s' = t.lastPing := by
      apply if_neg
      rintro (hqueued | ⟨hdown, _⟩)
      · obtain ⟨w, now, rfl⟩ := ping_mem_enqueues hqueued
        exact harms ((arms_iff_pings hup w now).mpr hqueued)
      · cases hdown.symm.trans hup
    rw [harmed, hquiet]
    refine ⟨hping, hdue, ?_⟩
    rcases hlast with hsame | hnow
    · rwa [hsame]
    · rw [hnow]
      omega

lemma Beating.act {latency : ℕ} {t : Timed Topic} {a : Action Topic} {s' : Session Topic}
    (h : Beating latency t) (hat : At t.now a) (heffect : Effect t.session a s') :
    Beating latency
      { session := s'
        now := t.now
        armedAt := noteArmed t.armedAt t.now t.session a
        lastPing := notePing t.lastPing t.now t.session a s' } := by
  have hpaced := paced_of_effect h.progress hat heffect
  have hstepped := stepped_of_effect h.progress heffect
  have hlast : s'.lastActivity = t.session.lastActivity ∨ s'.lastActivity = t.now := by
    cases hpaced with
    | even he => exact he.lastActivity
    | torn ht => exact ht.lastActivity
    | raised hr => exact .inr hr.lastActivity
  refine ⟨h.progress.step heffect, ?_, ?_⟩
  · rcases hlast with hsame | hnow
    · exact hsame.trans_le h.past
    · exact hnow.le
  · intro hopen' hup'
    have hopen : t.session.userClosed = false := hstepped.stillOpen hopen'
    by_cases hup : t.session.connected = true
    · exact h.act_up hopen hup hat heffect hlast
    · obtain ⟨now, rfl, _⟩ := hstepped.comesUp (by simpa using hup) hup'
      have harmed : noteArmed t.armedAt t.now t.session
          (.complete ⟨.handshake, t.session.generation⟩ .ok now) = t.now := if_pos ⟨rfl, rfl, hopen⟩
      have hpinged : notePing t.lastPing t.now t.session
          (.complete ⟨.handshake, t.session.generation⟩ .ok now) s' = t.now :=
        if_pos (.inr ⟨by simpa using hup, hup'⟩)
      have hnow : s'.lastActivity = t.now := by
        cases hpaced with
        | even he => exact absurd (he.connected hup') hup
        | torn ht => cases ht.connected'.symm.trans hup'
        | raised hr => exact hr.lastActivity
      dsimp only
      rw [harmed, hpinged, hnow]
      have hsilence : silenceMs = 76000 := rfl
      exact ⟨rfl, by omega, by omega⟩

lemma beating_of_run {latency start : ℕ} {as : List (TimedAction Topic)} {t : Timed Topic}
    (h : Run (timedStep latency) anyStep (timedInitial start) as t) : Beating latency t := by
  apply h.invariant (P := Beating latency)
  · exact ⟨progressInv_initial, Nat.zero_le _, fun _ hup => by cases hup⟩
  · intro t a t' ht _ hstep
    cases a with
    | tick ms =>
      simp only [timedStep] at hstep
      split at hstep
      · rename_i hdue
        obtain rfl := Option.some.inj hstep
        exact ht.tick hdue
      · cases hstep
    | act a =>
      obtain ⟨hat, s', hs', rfl⟩ := timedStep_act hstep
      exact ht.act hat (effect_of_step hs')

/-- If the ping handler runs at most `latency` milliseconds late, then on an open connection a ping
or the handshake is never more than 30 seconds and the latency ago, silence never lasts 106 seconds
and the latency, and the handler takes the connection down only after 76 seconds of silence. -/
theorem heartbeat_bounds {latency start : ℕ} {as : List (TimedAction Topic)} {t : Timed Topic}
    (h : Run (timedStep latency) anyStep (timedInitial start) as t)
    (hopen : t.session.userClosed = false) (hup : t.session.connected = true) :
    t.now ≤ t.lastPing + 30000 + latency ∧
    t.now < t.session.lastActivity + 106000 + latency ∧
    ∀ w t', timedStep latency t (.act (.pingTimer w t.now)) = some t' →
      t'.session.connected = false → t.session.lastActivity + 76000 ≤ t.now := by
  have hinv := beating_of_run h
  obtain ⟨hping, hdue, hactive⟩ := hinv.beat hopen hup
  have hsilence : silenceMs = 76000 := rfl
  have hinterval : pingIntervalMs = 30000 := rfl
  refine ⟨by omega, by omega, ?_⟩
  intro w t' hstep hdown
  by_contra hshort
  have hquick : ¬ activityTimeoutS < (t.now - t.session.lastActivity) / 1000 := by
    rw [silent_iff _ _ hinv.past]
    omega
  obtain ⟨_, s', hs', rfl⟩ := timedStep_act hstep
  cases effect_of_step hs' with
  | pinged hw =>
    have hkept : ({ t.session with pingTimer := t.session.pingTimer.erase w }.onPingTimer w.stamp
        (w.status == Status.aborted) t.now).connected = true := onPingTimer_up hup hquick
    cases hdown.symm.trans hkept

end

/-- A connection comes up, and the handler of its first ping runs 300 milliseconds late. -/
def latePing : List (TimedAction String) :=
  [.act .run, .act .task, .act (.complete ⟨.resolve, 1⟩ .ok 1000),
    .act (.complete ⟨.connect, 1⟩ .ok 1000), .act (.complete ⟨.sslHandshake, 1⟩ .ok 1000),
    .act (.complete ⟨.handshake, 1⟩ .ok 1000), .tick 30200, .act (.pingExpires ⟨1, .waiting⟩),
    .tick 100, .act (.pingTimer ⟨1, .fired⟩ 31300), .tick 200]

theorem heartbeat_bounds_after_late_ping : ∃ t : Timed String,
    Run (timedStep 500) anyStep (timedInitial 1000) latePing t ∧
    t.now = 31500 ∧ t.now ≤ t.lastPing + 30000 + 500 ∧
    t.now < t.session.lastActivity + 106000 + 500 := by
  have hexecute : (execute (timedStep 500) anyStep (timedInitial 1000) latePing).map
      (fun t => (t.now, t.session.userClosed, t.session.connected)) = some (31500, false, true) := by
    rfl
  obtain ⟨t, ht, hfacts⟩ := Option.map_eq_some_iff.mp hexecute
  simp only [Prod.mk.injEq] at hfacts
  have hbounds := heartbeat_bounds (run_of_execute ht) hfacts.2.1 hfacts.2.2
  exact ⟨t, run_of_execute ht, hfacts.1, hbounds.1, hbounds.2.1⟩

end HyperliquidApi.Session
