import HyperliquidApi.ConnectionMessages
import HyperliquidApi.SessionTopics

/-!
# Topics that are never given up

The flush and the unsubscribe of one topic may overtake each other, but never a topic that no
caller gives up. Such a topic is subscribed exactly once on every connection, and ahead of any
topic that is only asked for once it has been.
-/
namespace HyperliquidApi.Session
open Timers Runs

variable {Topic : Type*}

lemma subscribe_mem_enqueues {s : Session Topic} {a : Action Topic} {topic : Topic}
    (h : .subscribe topic ∈ enqueues s a) :
    topic ∈ s.pendingTopics ∧ enqueues s a = s.pendingTopics.map .subscribe := by
  cases a with
  | task =>
    dsimp only [enqueues] at h ⊢
    split at h
    · split at h
      · rename_i hup
        rw [if_pos hup]
        exact ⟨by simpa using h, rfl⟩
      · simp at h
    · split at h <;> simp at h
    · simp at h
  | complete p c now =>
    dsimp only [enqueues] at h ⊢
    split at h
    · rename_i hup
      rw [if_pos hup]
      exact ⟨by simpa using h, rfl⟩
    · simp at h
  | pingTimer w now =>
    dsimp only [enqueues] at h
    split at h <;> simp at h
  | _ => simp [enqueues] at h

lemma unsubscribe_mem_enqueues {s : Session Topic} {a : Action Topic} {topic : Topic}
    (h : .unsubscribe topic ∈ enqueues s a) : .unsubscribe topic ∈ s.tasks := by
  cases a with
  | task =>
    dsimp only [enqueues] at h
    split at h
    · split at h <;> simp at h
    · rename_i htasks
      split at h
      · obtain rfl : topic = _ := by simpa using h
        rw [htasks]
        exact List.mem_cons_self
      · simp at h
    · simp at h
  | complete p c now =>
    dsimp only [enqueues] at h
    split at h <;> simp at h
  | pingTimer w now =>
    dsimp only [enqueues] at h
    split at h <;> simp at h
  | _ => simp [enqueues] at h

section
variable [DecidableEq Topic]

def Keeps (topic : Topic) (_ : Session Topic) (a : Action Topic) : Prop := a ≠ .unsubscribe topic

/-- Subscribed at most once, and never unsubscribed. -/
def Once (topic : Topic) (ms : List (Message Topic)) : Prop :=
  ms.count (.subscribe topic) ≤ 1 ∧ .unsubscribe topic ∉ ms

instance (topic : Topic) (s : Session Topic) (a : Action Topic) : Decidable (Keeps topic s a) :=
  match a with
  | .unsubscribe other => decidable_of_iff (other ≠ topic) (by simp [Keeps])
  | .run | .subscribe _ | .close | .post _ | .task | .complete _ _ _ | .pingExpires _
  | .reconnectExpires _ | .pingTimer _ _ | .reconnectTimer _ | .drop => isTrue (by simp [Keeps])

lemma once_prefixClosed (topic : Topic) : PrefixClosed (Once topic) := by
  rintro ms ms' hinitial ⟨hcount, hnot⟩
  refine ⟨(hinitial.sublist.count_le _).trans hcount, ?_⟩
  intro hmem
  exact hnot (hinitial.subset hmem)

lemma count_map_subscribe (topics : List Topic) (topic : Topic) :
    (topics.map Message.subscribe).count (.subscribe topic) = topics.count topic := by
  apply List.count_map_of_injective
  intro a b hab
  simpa using hab

lemma once_subscribes {topics : List Topic} (hnodup : topics.Nodup) (topic : Topic) :
    Once topic (topics.map .subscribe) := by
  constructor
  · rw [count_map_subscribe]
    exact List.nodup_iff_count_le_one.mp hnodup topic
  · simp

structure Kept (topic : Topic) (s : Session Topic) : Prop where
  notOutstanding : ¬ Outstanding s topic
  agrees : Agrees topic s
  once : EveryConnection (Once topic) s

lemma mem_replay_of_kept {topic : Topic} {ms : List (Message Topic)}
    (h : .unsubscribe topic ∉ ms) : topic ∈ replay ms ↔ .subscribe topic ∈ ms := by
  induction ms using List.reverseRecOn with
  | nil => simp [replay]
  | append_singleton ms message ih =>
    rw [List.mem_append, List.mem_singleton, not_or] at h
    rw [mem_replay_append, ih h.1, List.mem_append, List.mem_singleton]
    have hne : message ≠ .unsubscribe topic := Ne.symm h.2
    simp only [hne, ne_eq, not_false_eq_true, and_true]
    rw [or_comm, eq_comm]

lemma Kept.sent {topic : Topic} {s : Session Topic} (h : Kept topic s) (hup : s.connected = true) :
    .subscribe topic ∈ s.messages ↔ topic ∈ s.subscriptions := by
  rw [h.agrees hup, mem_replay_of_kept (h.once.current hup).2, and_iff_left h.notOutstanding]

/-- A topic that is queued was waiting, so it had not been sent on this connection. -/
lemma Kept.queues {topic : Topic} {s : Session Topic} {a : Action Topic} (h : Kept topic s)
    (hnodup : s.topics.Nodup) (hup : s.connected = true) :
    Once topic (s.messages ++ enqueues s a) := by
  obtain ⟨hcount, hnot⟩ := h.once.current hup
  have hnone : .unsubscribe topic ∉ enqueues s a :=
    fun hmem => h.notOutstanding (.inr (unsubscribe_mem_enqueues hmem))
  refine ⟨?_, fun hmem => (List.mem_append.mp hmem).elim hnot hnone⟩
  rw [List.count_append]
  by_cases hnew : .subscribe topic ∈ enqueues s a
  · obtain ⟨hwaiting, henqueues⟩ := subscribe_mem_enqueues hnew
    obtain ⟨_, hpending, hdisjoint⟩ := List.nodup_append.mp hnodup
    have hunsent : .subscribe topic ∉ s.messages := by
      rw [h.sent hup]
      intro hmem
      exact hdisjoint topic hmem topic hwaiting rfl
    rw [List.count_eq_zero_of_not_mem hunsent, henqueues, Nat.zero_add]
    exact (once_subscribes hpending topic).1
  · rw [List.count_eq_zero_of_not_mem hnew]
    exact hcount

lemma Kept.step {topic : Topic} {s s' : Session Topic} {a : Action Topic} (h : Kept topic s)
    (hs : ProgressInv s) (hcleared : Cleared s) (hnodup : s.topics.Nodup)
    (hkeeps : Keeps topic s a) (heffect : Effect s a s') : Kept topic s' := by
  refine ⟨?_, h.agrees.step hs hcleared hnodup (.inl h.notOutstanding) heffect, ?_⟩
  · intro hout
    rcases heffect.outstanding hout with hold | ⟨hcall, _⟩
    · exact h.notOutstanding hold
    · exact hkeeps hcall
  · exact h.once.step (once_prefixClosed topic) hs hcleared (stepped_of_effect hs heffect)
      (h.queues hnodup) fun _ => once_subscribes hnodup topic

lemma kept_initial (topic : Topic) : Kept topic (initial : Session Topic) :=
  ⟨by simp [Outstanding, initial], fun hup => (by cases hup),
    everyConnection_initial ⟨Nat.zero_le 1, by simp⟩⟩

lemma since_isSome_iff {topic : Topic} {as : List (Action Topic)} (h : .unsubscribe topic ∉ as) :
    (since topic as).isSome = true ↔ .subscribe topic ∈ as := by
  induction as with
  | nil => simp [since]
  | cons a as ih =>
    obtain ⟨hne, hrest⟩ : _ ∧ _ := not_or.mp (fun hmem => h (List.mem_cons.mpr hmem))
    rw [List.mem_cons, ← ih hrest]
    cases a with
    | subscribe other =>
      by_cases heq : other = topic
      · subst heq
        cases hs : since other as <;> simp [since, hs]
      · simp [since, heq, Ne.symm heq]
    | unsubscribe other =>
      have hother : other ≠ topic := fun heq => hne (heq ▸ rfl)
      simp [since, hother]
    | _ => simp [since]

lemma Run.keeps {topic : Topic} {as : List (Action Topic)} {s : Session Topic}
    (h : Run step (Keeps topic) initial as s) : .unsubscribe topic ∉ as := by
  induction h with
  | nil => simp
  | snoc _ meets _ ih =>
    rw [List.mem_append, List.mem_singleton]
    rintro (hold | hnew)
    · exact ih hold
    · exact meets hnew.symm

structure KeptInv (topic : Topic) (s : Session Topic) : Prop where
  progress : ProgressInv s
  flushDue : FlushDue s
  kept : Kept topic s

lemma keptInv_of_run {topic : Topic} {as : List (Action Topic)} {s : Session Topic}
    (h : Run step (Keeps topic) initial as s) : KeptInv topic s := by
  induction h with
  | nil => exact ⟨progressInv_initial, .of_disconnected rfl, kept_initial topic⟩
  | snoc prior meets next ih =>
    have heffect := effect_of_step next
    obtain ⟨hlists, hcleared⟩ := lists_of_run (prior.weaken fun _ _ _ => trivial)
    exact ⟨ih.progress.step heffect, ih.flushDue.step ih.progress heffect,
      ih.kept.step ih.progress hcleared hlists.nodup meets heffect⟩

lemma KeptInv.live {topic : Topic} {s : Session Topic} (h : KeptInv topic s) (hquiet : Quiescent s) :
    topic ∈ replay s.written ↔ topic ∈ s.topics := by
  obtain ⟨hpending, hmessages⟩ := hquiet.drained h.flushDue
  rw [← hmessages, mem_replay_of_kept (h.kept.once.current hquiet.connected).2,
    h.kept.sent hquiet.connected, topics, hpending, List.append_nil]

lemma mem_topics_of_keeps {topic : Topic} {as : List (Action Topic)} {s : Session Topic}
    (h : Run step (Keeps topic) initial as s) : topic ∈ s.topics ↔ .subscribe topic ∈ as := by
  rw [(lists_of_run (h.weaken fun _ _ _ => trivial)).1.mem, since_isSome_iff]
  · exact List.mem_reverse
  · rw [List.mem_reverse]
    exact Run.keeps h

/-- Whatever overtakes what, a topic that no caller gives up is on no connection subscribed twice
or unsubscribed. While connected, it has been sent just when it is a sent subscription, and once
nothing is left to do, it is live if and only if it has been asked for. -/
theorem kept_topic_subscribed_once {topic : Topic} {as : List (Action Topic)} {s : Session Topic}
    (h : Run step (Keeps topic) initial as s) :
    (∀ gen, (onConnection gen s.wire).count (.subscribe topic) ≤ 1 ∧
      .unsubscribe topic ∉ onConnection gen s.wire) ∧
    (s.connected = true → (.subscribe topic ∈ s.messages ↔ topic ∈ s.subscriptions)) ∧
    (Quiescent s → (topic ∈ replay s.written ↔ .subscribe topic ∈ as)) := by
  have hinv := keptInv_of_run h
  refine ⟨hinv.kept.once.written, hinv.kept.sent, ?_⟩
  intro hquiet
  rw [hinv.live hquiet, mem_topics_of_keeps h]

end

/-- While one topic is lost to an overtaken unsubscribe, the one that is kept is live. -/
theorem kept_topic_subscribed_once_among_others : ∃ s : Session String,
    Run step (Keeps "bbo") initial (connects ++ ([.subscribe "trades", .post .flushTopics, .task,
      .complete ⟨.write, 1⟩ .ok 0, .subscribe "bbo", .post .flushTopics, .unsubscribe "trades",
      .post (.unsubscribe "trades"), .subscribe "trades", .post .flushTopics, .task, .task, .task,
      .complete ⟨.write, 1⟩ .ok 0, .complete ⟨.write, 1⟩ .ok 0, .complete ⟨.write, 1⟩ .ok 0] :
      List (Action String))) s ∧
    "bbo" ∈ replay s.written := by
  refine (exists_run_of_execute (P := Quiescent) (by decide +kernel)).imp fun s h => ⟨h.1, ?_⟩
  rw [(kept_topic_subscribed_once h.1).2.2 h.2]
  simp [connects]

end HyperliquidApi.Session
