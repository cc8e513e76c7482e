import HyperliquidApi.SessionChanges

/-!
# The messages of a connection

Messages are queued before they are written. What a change queues comes after all the messages that
the connection has so far, and only a flush sends waiting topics.
-/
namespace HyperliquidApi.Session

variable {Topic : Type*}

/-- The messages written on the current connection. -/
def written (s : Session Topic) : List (Message Topic) :=
  s.wire.filterMap fun entry => if entry.1 = s.generation then some entry.2 else none

/-- The messages of the current connection, with those that have yet to be written. -/
def messages (s : Session Topic) : List (Message Topic) := s.written ++ s.outboundQueue

/-- What a change queues comes after the messages of the connection. -/
lemma Change.messages {s s' : Session Topic} {out : List (Message Topic)} (h : Change s out s')
    (hup : s'.connected = true) : s.connected = true ∧ s'.messages = s.messages ++ out := by
  cases h with
  | calm hcalm =>
    refine ⟨hcalm.connected ▸ hup, ?_⟩
    rw [Session.messages, Session.written, hcalm.wire, hcalm.generation, hcalm.outboundQueue,
      List.append_nil]
    rfl
  | flushed => exact ⟨hup, (List.append_assoc _ _ _).symm⟩
  | enqueued payload => exact ⟨hup, (List.append_assoc _ _ _).symm⟩
  | handed hidle _ hqueue => exact ⟨hup, by simp [Session.messages, Session.written, hqueue]⟩
  | wrote hwrite => exact ⟨hup, (List.append_nil _).symm⟩
  | late hgen => exact ⟨hup, (List.append_nil _).symm⟩
  | tornDown => cases hup
  | restarted => cases hup

lemma Changes.messages {s s' : Session Topic} {out : List (ℕ × Message Topic)}
    (h : Changes s out s') (hup : s'.connected = true) :
    s.connected = true ∧ s'.messages = s.messages ++ out.map Prod.snd := by
  induction h with
  | none => exact ⟨hup, (List.append_nil _).symm⟩
  | @more out out' t s' _ next ih =>
    obtain ⟨hbefore, heq⟩ := next.messages hup
    obtain ⟨hstart, hmessages⟩ := ih hbefore
    refine ⟨hstart, ?_⟩
    rw [heq, hmessages, List.map_append, map_snd_tagged, List.append_assoc]

/-- A topic is sent by a flush only, which queues its subscribe message. -/
lemma Changes.mem_subscriptions {s s' : Session Topic} {out : List (ℕ × Message Topic)}
    (h : Changes s out s') (hup : s'.connected = true) {topic : Topic}
    (hout : .subscribe topic ∉ out.map Prod.snd) :
    topic ∈ s'.subscriptions ↔ topic ∈ s.subscriptions := by
  induction h with
  | none => exact Iff.rfl
  | more _ next ih =>
    rw [List.map_append, List.mem_append, not_or, map_snd_tagged] at hout
    rw [← ih (next.messages hup).1 hout.1]
    cases next with
    | calm hcalm => rw [hcalm.subscriptions]
    | flushed =>
      rw [List.mem_append]
      exact or_iff_left fun hmem => hout.2 (List.mem_map_of_mem hmem)
    | tornDown => cases hup
    | restarted => cases hup
    | enqueued => exact Iff.rfl
    | handed => exact Iff.rfl
    | wrote => exact Iff.rfl
    | late => exact Iff.rfl

/-- Changes only ever empty the list of waiting topics of a connected session. -/
lemma Changes.pendingTopics {s s' : Session Topic} {out : List (ℕ × Message Topic)}
    (h : Changes s out s') (hup : s'.connected = true) :
    s'.pendingTopics = s.pendingTopics ∨ s'.pendingTopics = [] := by
  induction h with
  | none => exact .inl rfl
  | more _ next ih =>
    have hbefore := ih (next.messages hup).1
    cases next with
    | calm hcalm =>
      rw [hcalm.pendingTopics]
      exact hbefore
    | flushed => exact .inr rfl
    | tornDown => cases hup
    | restarted => cases hup
    | enqueued => exact hbefore
    | handed => exact hbefore
    | wrote => exact hbefore
    | late => exact hbefore

lemma pump_same (s : Session Topic) : s.pump.connected = s.connected ∧
    s.pump.pendingTopics = s.pendingTopics ∧ s.pump.subscriptions = s.subscriptions ∧
      s.pump.messages = s.messages := by
  rcases s.pump_cases with heq | ⟨payload, rest, _, _, _, hqueue, heq⟩
  · rw [heq]
    exact ⟨rfl, rfl, rfl, rfl⟩
  · rw [heq]
    exact ⟨rfl, rfl, rfl, by simp [messages, written, hqueue]⟩

lemma flushTopics_up {s : Session Topic} (hup : s.connected = true) :
    s.flushTopics.connected = true ∧ s.flushTopics.pendingTopics = [] ∧
      s.flushTopics.subscriptions = s.topics ∧
      s.flushTopics.messages = s.messages ++ s.pendingTopics.map .subscribe := by
  let s₁ : Session Topic :=
    { s with
      subscriptions := s.subscriptions ++ s.pendingTopics
      pendingTopics := []
      outboundQueue := s.outboundQueue ++ s.pendingTopics.map .subscribe }
  have heq : s.flushTopics = s₁.pump := by simp [flushTopics, hup, s₁]
  obtain ⟨hconnected, hpending, hsubscriptions, hmessages⟩ := pump_same s₁
  rw [heq]
  exact ⟨hconnected.trans hup, hpending, hsubscriptions,
    hmessages.trans (List.append_assoc _ _ _).symm⟩

def connects : List (Action String) :=
  [.run, .task, .complete ⟨.resolve, 1⟩ .ok 0, .complete ⟨.connect, 1⟩ .ok 0,
    .complete ⟨.sslHandshake, 1⟩ .ok 0, .complete ⟨.handshake, 1⟩ .ok 0]

end HyperliquidApi.Session
