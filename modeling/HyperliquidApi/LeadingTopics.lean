import HyperliquidApi.KeptTopics

/-!
# Topics that come first

A topic that is kept stays ahead of one that is only asked for after it: in the topic lists, and
in the messages of every connection, also after the other was given up and asked for again.
-/
namespace HyperliquidApi.Session
open Timers Runs

variable {Topic : Type*}

section
variable [DecidableEq Topic]

/-- The first topic is kept, and the later one only asked for once the first has been. -/
def Leads (first later : Topic) (s : Session Topic) (a : Action Topic) : Prop :=
  Keeps first s a ∧ (a = .subscribe later → first ∈ s.topics)

/-- Nothing about the later topic comes before the first is subscribed. -/
def After (first later : Topic) (ms : List (Message Topic)) : Prop :=
  ∀ m ∈ ms.takeWhile (· ≠ .subscribe first), m ≠ .subscribe later ∧ m ≠ .unsubscribe later

/-- The later topic is not in a list without the first before it. -/
def Ahead (first later : Topic) (topics : List Topic) : Prop :=
  later ∉ topics.takeWhile (· ≠ first)

instance (first later : Topic) (s : Session Topic) (a : Action Topic) :
    Decidable (Leads first later s a) :=
  match a with
  | .subscribe other =>
    decidable_of_iff (other = later → first ∈ s.topics) (by simp [Leads, Keeps])
  | .unsubscribe other => decidable_of_iff (other ≠ first) (by simp [Leads, Keeps])
  | .run | .close | .post _ | .task | .complete _ _ _ | .pingExpires _
  | .reconnectExpires _ | .pingTimer _ _ | .reconnectTimer _ | .drop =>
    isTrue (by simp [Leads, Keeps])

instance (first later : Topic) (ms : List (Message Topic)) : Decidable (After first later ms) :=
  inferInstanceAs (Decidable (∀ m ∈ ms.takeWhile (· ≠ .subscribe first),
    m ≠ .subscribe later ∧ m ≠ .unsubscribe later))

section
variable {α : Type*} [DecidableEq α]

/-- The part of a list before an element. -/
lemma takeWhile_append_of_mem {x : α} {l : List α} (h : x ∈ l) (l' : List α) :
    (l ++ l').takeWhile (· ≠ x) = l.takeWhile (· ≠ x) := by
  rw [List.takeWhile_append, if_neg]
  intro hlen
  have hall := (List.takeWhile_sublist (fun y => decide (y ≠ x))).eq_of_length hlen
  have hx := List.takeWhile_eq_self_iff.mp hall x h
  simp at hx

lemma takeWhile_append_of_not_mem {x : α} {l : List α} (h : x ∉ l) (l' : List α) :
    (l ++ l').takeWhile (· ≠ x) = l ++ l'.takeWhile (· ≠ x) := by
  apply List.takeWhile_append_of_pos
  intro y hy
  simpa using fun heq : y = x => h (heq ▸ hy)

lemma takeWhile_of_not_mem {x : α} {l : List α} (h : x ∉ l) : l.takeWhile (· ≠ x) = l := by
  simpa using takeWhile_append_of_not_mem h []

end

lemma after_prefixClosed (first later : Topic) : PrefixClosed (After first later) := by
  rintro ms ms' ⟨rest, rfl⟩ h m hm
  apply h
  by_cases hfirst : Message.subscribe first ∈ ms
  · rwa [takeWhile_append_of_mem hfirst]
  · rw [takeWhile_of_not_mem hfirst] at hm
    rw [takeWhile_append_of_not_mem hfirst]
    exact List.mem_append_left _ hm

lemma Ahead.mem {first later : Topic} {topics : List Topic} (h : Ahead first later topics)
    (hlater : later ∈ topics) : first ∈ topics := by
  by_contra hfirst
  rw [Ahead, takeWhile_of_not_mem hfirst] at h
  exact h hlater

/-- Giving up another topic moves nothing ahead. -/
lemma Ahead.filter {first later other : Topic} {topics : List Topic} (h : Ahead first later topics)
    (hne : first ≠ other) : Ahead first later (topics.filter (· ≠ other)) := by
  intro hmem
  apply h
  induction topics with
  | nil => simp at hmem
  | cons topic topics ih =>
    by_cases hfirst : topic = first
    · subst hfirst
      simp [hne] at hmem
    · have htail : Ahead first later topics := by
        intro hin
        apply h
        rw [List.takeWhile_cons_of_pos (by simpa using hfirst)]
        exact List.mem_cons_of_mem _ hin
      rw [List.takeWhile_cons_of_pos (by simpa using hfirst), List.mem_cons]
      by_cases hother : topic = other
      · rw [List.filter_cons_of_neg (by simpa using hother)] at hmem
        exact .inr (ih htail hmem)
      · rw [List.filter_cons_of_pos (by simpa using hother),
          List.takeWhile_cons_of_pos (by simpa using hfirst), List.mem_cons] at hmem
        exact hmem.imp_right (ih htail)

lemma Ahead.call {first later : Topic} {s : Session Topic} {a : Action Topic}
    (h : Ahead first later s.topics) (ha : Leads first later s a) :
    Ahead first later (call s.topics a) := by
  cases a with
  | subscribe topic =>
    dsimp only [Session.call]
    split
    · exact h
    · by_cases hfirst : first ∈ s.topics
      · rw [Ahead, takeWhile_append_of_mem hfirst]
        exact h
      · rw [Ahead, takeWhile_append_of_not_mem hfirst, List.mem_append, not_or]
        refine ⟨fun hlater => hfirst (h.mem hlater), ?_⟩
        intro hmem
        have htopic : later = topic := List.mem_singleton.mp ((List.takeWhile_sublist _).subset hmem)
        exact hfirst (ha.2 (htopic ▸ rfl))
  | unsubscribe topic =>
    apply h.filter
    rintro rfl
    exact ha.1 rfl
  | _ => exact h

/-- Messages that open a connection keep the order of the topics. -/
lemma Ahead.subscribes {first later : Topic} {topics : List Topic}
    (h : Ahead first later topics) : After first later (topics.map .subscribe) := by
  intro m hm
  have hwhile : (topics.map Message.subscribe).takeWhile (· ≠ Message.subscribe first) =
      (topics.takeWhile (· ≠ first)).map .subscribe := by
    rw [List.takeWhile_map]
    congr 2
    funext topic
    simp
  rw [hwhile] at hm
  obtain ⟨topic, htopic, rfl⟩ := List.mem_map.mp hm
  refine ⟨?_, by simp⟩
  intro heq
  obtain rfl : topic = later := by simpa using heq
  exact h htopic

lemma Keeps.mem_call {topic : Topic} {s : Session Topic} {a : Action Topic} (h : Keeps topic s a)
    {topics : List Topic} (hmem : topic ∈ topics) : topic ∈ call topics a := by
  cases a with
  | subscribe other =>
    dsimp only [call]
    split
    · exact hmem
    · exact List.mem_append_left _ hmem
  | unsubscribe other =>
    have hne : topic ≠ other := by
      rintro rfl
      exact h rfl
    simpa [call, hne] using hmem
  | _ => exact hmem

/-- Only a handshake brings a session up, and it flushes all topics. -/
lemma Effect.opens {s s' : Session Topic} {a : Action Topic} (h : Effect s a s')
    (hs : ProgressInv s) (hdown : s.connected = false) (hup : s'.connected = true) :
    s'.subscriptions = s'.topics := by
  obtain ⟨now, rfl, hopen⟩ := (stepped_of_effect hs h).comesUp hdown hup
  cases h with
  | completed hp =>
    have hpending := (flushTopics_up (s := cameUp s now) rfl).2.1
    have heq := handshake_up hopen now
    rw [without] at heq
    rw [topics, heq]
    simp [begin, hpending]

/-- What holds of the two topics in every state of a run; the later one's unsubscribe can only be
on its way if the first was asked for. -/
structure LeadInv (first later : Topic) (s : Session Topic) : Prop where
  kept : KeptInv first s
  ahead : Ahead first later s.topics
  asked : Outstanding s later → first ∈ s.topics
  sent : s.connected = true → Outstanding s later → first ∈ s.subscriptions
  after : EveryConnection (After first later) s

/-- If the first topic has not been sent, nothing that a step queues concerns the later one
without the first before it. -/
lemma LeadInv.queues {first later : Topic} {s : Session Topic} (h : LeadInv first later s)
    (a : Action Topic) (hup : s.connected = true) :
    After first later (s.messages ++ enqueues s a) := by
  have hcurrent := h.after.current hup
  by_cases hsent : Message.subscribe first ∈ s.messages
  · rw [After, takeWhile_append_of_mem hsent]
    exact hcurrent
  · rw [After, takeWhile_of_not_mem hsent] at hcurrent
    rw [After, takeWhile_append_of_not_mem hsent]
    have hunsent : first ∉ s.subscriptions := by rwa [← h.kept.kept.sent hup]
    intro m hm
    rcases List.mem_append.mp hm with hold | hnew
    · exact hcurrent m hold
    · have hqueued := (List.takeWhile_sublist _).subset hnew
      constructor
      · rintro rfl
        obtain ⟨_, henqueues⟩ := subscribe_mem_enqueues hqueued
        have hpending : Ahead first later s.pendingTopics := by
          have hahead := h.ahead
          rw [Ahead, topics, takeWhile_append_of_not_mem hunsent, List.mem_append, not_or] at hahead
          exact hahead.2
        rw [henqueues] at hnew
        exact (hpending.subscribes _ hnew).1 rfl
      · rintro rfl
        exact hunsent (h.sent hup (.inr (unsubscribe_mem_enqueues hqueued)))

/-- While connected, a kept topic stays among the sent subscriptions. -/
lemma LeadInv.keeps_sent {first later : Topic} {s s' : Session Topic} {a : Action Topic}
    (h : LeadInv first later s) (hkept : KeptInv first s') (hstepped : Stepped s a s')
    (hup : s'.connected = true) (hbefore : s.connected = true) (hsent : first ∈ s.subscriptions) :
    first ∈ s'.subscriptions := by
  rw [← hkept.kept.sent hup]
  have hmessages : Message.subscribe first ∈ s.messages := (h.kept.kept.sent hbefore).mpr hsent
  cases hstepped with
  | called => exact hmessages
  | closed htasks hopen hcalm =>
    rw [messages, Session.written, hcalm.wire, hcalm.generation, hcalm.outboundQueue]
    exact hmessages
  | connected hp hopen hchanges =>
    have hdown := ((h.kept.progress.phase hopen).of_chain hp rfl).connected
    cases hbefore.symm.trans hdown
  | changed hsame hchanges =>
    rw [(hchanges.messages hup).2]
    exact List.mem_append_left _ hmessages

lemma LeadInv.step {first later : Topic} {s s' : Session Topic} {a : Action Topic}
    (h : LeadInv first later s) (hcleared : Cleared s) (hnodup : s.topics.Nodup)
    (ha : Leads first later s a) (heffect : Effect s a s') : LeadInv first later s' := by
  have hs := h.kept.progress
  have hstepped := stepped_of_effect hs heffect
  have hkept : KeptInv first s' := ⟨hs.step heffect, h.kept.flushDue.step hs heffect,
    h.kept.kept.step hs hcleared hnodup ha.1 heffect⟩
  have htopics := hstepped.topics hnodup
  have hstays : first ∈ s.topics → first ∈ s'.topics := by
    intro hmem
    rw [htopics]
    exact ha.1.mem_call hmem
  -- an unsubscribe of the later topic starts from a sent subscription, which the first precedes
  have hcalled : later ∈ s.subscriptions → first ∈ s.subscriptions := by
    intro hlater
    by_contra hunsent
    have hnot := h.ahead
    rw [Ahead, topics, takeWhile_append_of_not_mem hunsent] at hnot
    exact hnot (List.mem_append_left _ hlater)
  have hasked : Outstanding s' later → first ∈ s'.topics := by
    intro hout
    rcases heffect.outstanding hout with hold | ⟨_, hsent⟩
    · exact hstays (h.asked hold)
    · exact hstays (List.mem_append_left _ (hcalled hsent))
  refine ⟨hkept, ?_, hasked, ?_, ?_⟩
  · rw [htopics]
    exact h.ahead.call ha
  · intro hup hout
    by_cases hbefore : s.connected = true
    · apply h.keeps_sent hkept hstepped hup hbefore
      rcases heffect.outstanding hout with hold | ⟨_, hsent⟩
      · exact h.sent hbefore hold
      · exact hcalled hsent
    · rw [heffect.opens hs (by simpa using hbefore) hup]
      exact hasked hout
  · exact h.after.step (after_prefixClosed first later) hs hcleared hstepped (h.queues a)
      fun _ => h.ahead.subscribes

lemma leadInv_of_run {first later : Topic} {as : List (Action Topic)} {s : Session Topic}
    (h : Run step (Leads first later) initial as s) : LeadInv first later s := by
  induction h with
  | nil =>
    refine ⟨keptInv_of_run .nil, by simp [Ahead, topics, initial], ?_, ?_, ?_⟩
    · simp [Outstanding, initial]
    · simp [Outstanding, initial]
    · exact everyConnection_initial (by simp [After])
  | snoc prior meets next ih =>
    obtain ⟨hlists, hcleared⟩ := lists_of_run (prior.weaken fun _ _ _ => trivial)
    exact ih.step hcleared hlists.nodup meets (effect_of_step next)

/-- If one topic is kept and another only asked for after it, then on every connection the venue
is told nothing about the other before it is asked to send the first. -/
theorem leading_topic_subscribed_first {first later : Topic} {as : List (Action Topic)}
    {s : Session Topic} (h : Run step (Leads first later) initial as s) (hne : first ≠ later)
    (gen : ℕ) {before after : List (Message Topic)} {m : Message Topic}
    (hm : m = .subscribe later ∨ m = .unsubscribe later)
    (hwire : onConnection gen s.wire = before ++ m :: after) : .subscribe first ∈ before := by
  have hafter := (leadInv_of_run h).after.written gen
  by_contra hnot
  rw [hwire, After, takeWhile_append_of_not_mem hnot] at hafter
  have hother : m ≠ .subscribe first := by
    rcases hm with rfl | rfl
    · simpa using hne.symm
    · simp
  have hmem : m ∈ before ++ (m :: after).takeWhile (· ≠ .subscribe first) := by
    rw [List.takeWhile_cons_of_pos (by simpa using hother)]
    simp
  have hnone := hafter m hmem
  exact hm.elim hnone.1 hnone.2

end

/-- The later topic is flushed first, given up and asked for again, and the stream breaks in
between; the second connection still begins with the kept one. -/
theorem leading_topic_subscribed_first_after_reconnect :
    ∃ (s : Session String) (before : List (Message String)),
    Run step (Leads "fills" "bbo") initial (connects ++ ([.subscribe "fills", .subscribe "bbo",
      .post .flushTopics, .task, .complete ⟨.write, 1⟩ .ok 0, .unsubscribe "bbo",
      .complete ⟨.read, 1⟩ .failed 5, .subscribe "bbo", .reconnectExpires ⟨1, .waiting⟩,
      .reconnectTimer ⟨1, .fired⟩, .complete ⟨.resolve, 2⟩ .ok 6, .complete ⟨.connect, 2⟩ .ok 7,
      .complete ⟨.sslHandshake, 2⟩ .ok 8, .complete ⟨.handshake, 2⟩ .ok 9,
      .complete ⟨.write, 2⟩ .ok 10] : List (Action String))) s ∧
    onConnection 2 s.wire = before ++ [.subscribe "bbo"] ∧ .subscribe "fills" ∈ before := by
  refine (exists_run_of_execute (P := fun s => onConnection 2 s.wire =
    [.subscribe "fills", .subscribe "bbo"]) (by decide +kernel)).imp fun s h =>
      ⟨[.subscribe "fills"], h.1, h.2, ?_⟩
  have hwire : onConnection 2 s.wire = [.subscribe "fills"] ++ .subscribe "bbo" :: [] := h.2
  exact leading_topic_subscribed_first h.1 (by decide) 2 (.inl rfl) hwire

end HyperliquidApi.Session
