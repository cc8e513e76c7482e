import HyperliquidApi.SessionMessages

/-!
# The order of topics

Topics move between the two lists with every flush, error and reconnect. Together the lists hold
the topics whose last call was `subscribe`, in the order in which they were asked for, and every
connection starts with one subscribe message for each of them.
-/
namespace HyperliquidApi.Session
open Timers Runs

variable {Topic : Type*}

section
variable [DecidableEq Topic]

/-- When the topic was asked for, if the last call about it was `subscribe`: the place of the
latest such call that was effective. Actions are given latest first. -/
def since (topic : Topic) : List (Action Topic) → Option ℕ
  | [] => none
  | .subscribe other :: earlier =>
    if other = topic then (since topic earlier).or (some earlier.length) else since topic earlier
  | .unsubscribe other :: earlier => if other = topic then none else since topic earlier
  | _ :: earlier => since topic earlier

lemma since_lt {topic : Topic} {as : List (Action Topic)} {n : ℕ} (h : since topic as = some n) :
    n < as.length := by
  induction as with
  | nil => cases h
  | cons a as ih =>
    have hlater : since topic as = some n → n < (a :: as).length :=
      fun hn => (ih hn).trans (Nat.lt_succ_self _)
    cases a with
    | subscribe other =>
      unfold since at h
      split at h
      · rcases Option.or_eq_some_iff.mp h with hn | ⟨_, hn⟩
        · exact hlater hn
        · rw [← Option.some.inj hn]
          exact Nat.lt_succ_self _
      · exact hlater h
    | unsubscribe other =>
      unfold since at h
      split at h
      · cases h
      · exact hlater h
    | _ => exact hlater h

/-- The topics whose last call was `subscribe`, in the order of their latest effective one. -/
structure Lists (as : List (Action Topic)) (topics : List Topic) : Prop where
  nodup : topics.Nodup
  mem : ∀ topic, topic ∈ topics ↔ (since topic as.reverse).isSome = true
  order : topics.Pairwise fun x y => ∀ n m, since x as.reverse = some n →
    since y as.reverse = some m → n < m

/-- Nothing is asked for or given up. -/
lemma Lists.same {as : List (Action Topic)} {topics : List Topic} {a : Action Topic}
    (h : Lists as topics) (ha : ∀ topic, since topic (as ++ [a]).reverse = since topic as.reverse) :
    Lists (as ++ [a]) topics := by
  constructor
  · exact h.nodup
  · intro topic
    rw [ha]
    exact h.mem topic
  · simp only [ha]
    exact h.order

lemma Lists.subscribe {as : List (Action Topic)} {topics : List Topic} (h : Lists as topics)
    (topic : Topic) : Lists (as ++ [.subscribe topic]) (call topics (.subscribe topic)) := by
  have hsince : ∀ other, since other (as ++ [Action.subscribe topic]).reverse =
      if topic = other then (since other as.reverse).or (some as.length)
      else since other as.reverse := by
    intro other
    rw [List.reverse_append, List.reverse_singleton, List.singleton_append, since,
      List.length_reverse]
  by_cases hmem : topic ∈ topics
  · rw [call, if_pos hmem]
    apply h.same
    intro other
    rw [hsince]
    split
    · rename_i heq
      obtain ⟨n, hn⟩ := Option.isSome_iff_exists.mp ((h.mem other).mp (heq ▸ hmem))
      rw [hn, Option.some_or]
    · rfl
  · have hnone : since topic as.reverse = none := by
      rw [← Option.not_isSome_iff_eq_none]
      exact fun hsome => hmem ((h.mem topic).mpr hsome)
    have hself : since topic (as ++ [Action.subscribe topic]).reverse = some as.length := by
      rw [hsince, if_pos rfl, hnone, Option.none_or]
    have hother : ∀ other ∈ topics, since other (as ++ [Action.subscribe topic]).reverse =
        since other as.reverse := by
      intro other hin
      rw [hsince, if_neg]
      rintro rfl
      exact hmem hin
    rw [call, if_neg hmem]
    constructor
    · rw [List.nodup_append]
      refine ⟨h.nodup, List.nodup_singleton topic, ?_⟩
      intro x hx y hy hxy
      rw [List.mem_singleton.mp hy] at hxy
      exact hmem (hxy ▸ hx)
    · intro other
      rw [List.mem_append, List.mem_singleton]
      by_cases heq : other = topic
      · subst heq
        rw [hself]
        simp
      · rw [hsince, if_neg (Ne.symm heq), h.mem]
        simp [heq]
    · rw [List.pairwise_append]
      refine ⟨?_, List.pairwise_singleton _ _, ?_⟩
      · apply h.order.imp_of_mem
        intro x y hx hy hxy
        rw [hother x hx, hother y hy]
        exact hxy
      · intro x hx y hy n m hn hm
        rw [List.mem_singleton.mp hy, hself] at hm
        rw [hother x hx] at hn
        have hlt := since_lt hn
        rw [List.length_reverse] at hlt
        rwa [← Option.some.inj hm]

lemma Lists.unsubscribe {as : List (Action Topic)} {topics : List Topic} (h : Lists as topics)
    (topic : Topic) : Lists (as ++ [.unsubscribe topic]) (call topics (.unsubscribe topic)) := by
  have hsince : ∀ other, since other (as ++ [Action.unsubscribe topic]).reverse =
      if topic = other then none else since other as.reverse := by
    intro other
    rw [List.reverse_append, List.reverse_singleton, List.singleton_append, since]
  have hrest : ∀ other n, since other (as ++ [Action.unsubscribe topic]).reverse = some n →
      since other as.reverse = some n := by
    intro other n hn
    rw [hsince] at hn
    split at hn
    · cases hn
    · exact hn
  constructor
  · exact h.nodup.filter _
  · intro other
    rw [call, List.mem_filter, hsince, h.mem]
    by_cases heq : topic = other
    · simp [heq]
    · simp [heq, Ne.symm heq]
  · apply (h.order.filter _).imp
    intro x y hxy n m hn hm
    exact hxy n m (hrest x n hn) (hrest y m hm)

lemma Lists.step {as : List (Action Topic)} {topics : List Topic} (h : Lists as topics)
    (a : Action Topic) : Lists (as ++ [a]) (call topics a) := by
  cases a with
  | subscribe topic => exact h.subscribe topic
  | unsubscribe topic => exact h.unsubscribe topic
  | _ =>
    apply h.same
    intro topic
    rw [List.reverse_append]
    rfl

end

/-- Between two connections nothing is queued and nothing has been written yet. -/
structure Cleared (s : Session Topic) : Prop where
  idle : s.connected = false → s.subscriptions = [] ∧ s.outboundQueue = []
  unwritten : s.userClosed = false → s.connected = false → s.reconnectScheduled = false →
    s.written = []
  stamped : ∀ entry ∈ s.wire, entry.1 ≤ s.generation

lemma Cleared.calm {s s' : Session Topic} (h : Cleared s) (hs : Calm s s') : Cleared s' := by
  constructor
  · rw [hs.connected, hs.subscriptions, hs.outboundQueue]
    exact h.idle
  · intro hopen hdown hscheduled
    rw [hs.userClosed] at hopen
    rw [hs.connected] at hdown
    unfold written
    rw [hs.wire, hs.generation]
    rcases hs.scheduled with hsame | hclosed
    · exact h.unwritten hopen hdown (hsame ▸ hscheduled)
    · cases hopen.symm.trans hclosed
  · rw [hs.wire, hs.generation]
    exact h.stamped

lemma Cleared.up {s : Session Topic} (hup : s.connected = true)
    (hstamped : ∀ entry ∈ s.wire, entry.1 ≤ s.generation) : Cleared s := by
  refine ⟨?_, ?_, hstamped⟩
  · intro hdown
    cases hup.symm.trans hdown
  · intro _ hdown
    cases hup.symm.trans hdown

/-- A new generation has nothing on the wire. -/
lemma filterMap_later {wire : List (ℕ × Message Topic)} {gen : ℕ}
    (h : ∀ entry ∈ wire, entry.1 ≤ gen) :
    wire.filterMap (fun entry => if entry.1 = gen + 1 then some entry.2 else none) = [] := by
  apply List.filterMap_eq_nil_iff.mpr
  intro entry hentry
  have hle := h entry hentry
  apply if_neg
  omega

lemma Cleared.change {s s' : Session Topic} {out : List (Message Topic)} (h : Cleared s)
    (hs : Change s out s') : Cleared s' := by
  cases hs with
  | calm hcalm => exact h.calm hcalm
  | flushed hup => exact .up hup h.stamped
  | enqueued payload hup => exact .up hup h.stamped
  | handed hidle hup hqueue =>
    refine .up hup ?_
    intro entry hentry
    rcases List.mem_append.mp hentry with hold | hnew
    · exact h.stamped entry hold
    · rw [List.mem_singleton.mp hnew]
  | wrote hwrite => exact ⟨h.idle, h.unwritten, h.stamped⟩
  | late hgen => exact ⟨h.idle, h.unwritten, h.stamped⟩
  | tornDown hscheduled hopen _ _ _ =>
    refine ⟨fun _ => ⟨rfl, rfl⟩, ?_, h.stamped⟩
    intro _ _ hnot
    cases hnot
  | restarted hdown hopen hstamped scheduled =>
    refine ⟨fun _ => h.idle hdown, fun _ _ _ => filterMap_later h.stamped, ?_⟩
    intro entry hentry
    exact (h.stamped entry hentry).trans (Nat.le_succ _)

lemma Cleared.changes {s s' : Session Topic} {out : List (ℕ × Message Topic)} (h : Cleared s)
    (hs : Changes s out s') : Cleared s' :=
  hs.keep h fun _ _ _ ht hchange => ht.change hchange

lemma Cleared.comeUp {s : Session Topic} (h : Cleared s) (now : ℕ) : Cleared (cameUp s now) :=
  .up rfl h.stamped

lemma Cleared.step [DecidableEq Topic] {s s' : Session Topic} {a : Action Topic} (h : Cleared s)
    (hs : Stepped s a s') : Cleared s' := by
  cases hs with
  | called hcall hnil htopics =>
    refine ⟨?_, h.unwritten, h.stamped⟩
    intro hdown
    exact ⟨hnil (h.idle hdown).1, (h.idle hdown).2⟩
  | closed htasks hopen hcalm =>
    have hclosed : Cleared { s with userClosed := true } :=
      ⟨h.idle, fun hnot => (by cases hnot), h.stamped⟩
    exact hclosed.calm hcalm
  | @connected now _ hp hopen hchanges => exact (h.comeUp now).changes hchanges
  | changed hsame hchanges => exact h.changes hchanges

lemma cleared_initial : Cleared (initial : Session Topic) :=
  ⟨fun _ => ⟨rfl, rfl⟩, fun _ _ _ => rfl, by simp [initial]⟩

lemma Change.topics {s s' : Session Topic} {out : List (Message Topic)} (h : Change s out s') :
    s'.topics = s.topics := by
  cases h with
  | calm hcalm => rw [Session.topics, hcalm.subscriptions, hcalm.pendingTopics, Session.topics]
  | flushed hup => exact List.append_nil _
  | _ => rfl

lemma Changes.topics {s s' : Session Topic} {out : List (ℕ × Message Topic)}
    (h : Changes s out s') : s'.topics = s.topics := by
  induction h with
  | none => rfl
  | more _ next ih => rw [next.topics, ih]

lemma Stepped.topics [DecidableEq Topic] {s s' : Session Topic} {a : Action Topic}
    (h : Stepped s a s') (hnodup : s.topics.Nodup) : s'.topics = call s.topics a := by
  cases h with
  | called hcall hnil htopics => exact htopics hnodup
  | closed htasks hopen hcalm =>
    rw [Session.topics, hcalm.subscriptions, hcalm.pendingTopics]
    rfl
  | connected hp hopen hchanges => exact hchanges.topics
  | changed hsame hchanges => rw [hchanges.topics, hsame]

lemma lists_of_run [DecidableEq Topic] {as : List (Action Topic)} {s : Session Topic}
    (h : Run step anyStep initial as s) : Lists as s.topics ∧ Cleared s := by
  induction h with
  | nil =>
    refine ⟨⟨List.nodup_nil, ?_, List.Pairwise.nil⟩, cleared_initial⟩
    intro topic
    simp [Session.topics, initial, since]
  | snoc prior _ next ih =>
    obtain ⟨hlists, hcleared⟩ := ih
    have hstepped := stepped_of_effect (progressInv_of_run prior) (effect_of_step next)
    rw [hstepped.topics hlists.nodup]
    exact ⟨hlists.step _, hcleared.step hstepped⟩

/-- The handshake of an open session queues or writes the topics and nothing else. -/
lemma Cleared.handshake {s : Session Topic} (h : Cleared s) (hs : ProgressInv s)
    (hopen : s.userClosed = false) (hp : ⟨.handshake, s.generation⟩ ∈ s.pending) (now : ℕ) :
    s.messages = [] ∧
      ((s.without ⟨.handshake, s.generation⟩).onCompletion ⟨.handshake, s.generation⟩ .ok now).messages =
        s.topics.map .subscribe := by
  have hconnecting := (hs.phase hopen).of_chain hp rfl
  obtain ⟨hnil, hqueue⟩ := h.idle hconnecting.connected
  have hwritten := h.unwritten hopen hconnecting.connected hconnecting.scheduled
  have hmessages : s.messages = [] := by rw [messages, hwritten, hqueue]; rfl
  have hflushed := handshake_changes hopen now
  have hup := (flushTopics_up (s := cameUp s now) rfl).1
  refine ⟨hmessages, ?_⟩
  rw [(hflushed.messages ((congrArg Session.connected (handshake_up hopen now)).trans hup)).2]
  have hcameUp : (cameUp s now).messages = s.messages := rfl
  rw [hcameUp, hmessages, map_snd_tagged, Session.topics, hnil]
  rfl

/-- In every run the two lists are disjoint and without duplicates and together hold the topics
whose last call was `subscribe`, in the order of their latest effective one; without a connection
nothing is queued; and the handshake of a connection sends exactly these topics, in this order
and before anything else. -/
theorem topics_kept_and_replayed [DecidableEq Topic] {as : List (Action Topic)} {s : Session Topic}
    (h : Run step anyStep initial as s) :
    (s.subscriptions ++ s.pendingTopics).Nodup ∧
    (∀ topic, topic ∈ s.subscriptions ++ s.pendingTopics ↔ (since topic as.reverse).isSome = true) ∧
    ((s.subscriptions ++ s.pendingTopics).Pairwise fun x y => ∀ n m,
      since x as.reverse = some n → since y as.reverse = some m → n < m) ∧
    (s.connected = false → s.outboundQueue = []) ∧
    ∀ now s', s.userClosed = false →
      step s (.complete ⟨.handshake, s.generation⟩ .ok now) = some s' →
        s.messages = [] ∧ s'.messages = (s.subscriptions ++ s.pendingTopics).map .subscribe := by
  obtain ⟨hlists, hcleared⟩ := lists_of_run h
  refine ⟨hlists.nodup, hlists.mem, hlists.order, fun hdown => (hcleared.idle hdown).2, ?_⟩
  intro now s' hopen hstep
  simp only [step] at hstep
  split at hstep
  · rename_i hp
    obtain rfl := Option.some.inj hstep
    exact hcleared.handshake (progressInv_of_run h) hopen hp now
  · cases hstep

/-- Three topics over two connections: the first is given up and asked for again while the session
waits to reconnect, so it is replayed last. -/
theorem topics_replayed_after_reconnect : ∃ (as : List (Action String)) (s s' : Session String),
    Run step anyStep initial as s ∧
    step s (.complete ⟨.handshake, 2⟩ .ok 9) = some s' ∧ s.messages = [] ∧
      s'.messages = [.subscribe "bbo", .subscribe "fills", .subscribe "trades"] := by
  have hrun : Run step anyStep (initial : Session String) (connects ++
      ([.subscribe "trades", .subscribe "bbo", .post .flushTopics, .task, .subscribe "fills",
        .complete ⟨.read, 1⟩ .failed 5, .unsubscribe "trades", .subscribe "trades",
        .reconnectExpires ⟨1, .waiting⟩, .reconnectTimer ⟨1, .fired⟩, .complete ⟨.resolve, 2⟩ .ok 6,
        .complete ⟨.connect, 2⟩ .ok 7, .complete ⟨.sslHandshake, 2⟩ .ok 8] :
        List (Action String))) _ := run_of_execute rfl
  have hreplayed := (topics_kept_and_replayed hrun).2.2.2.2 9 _ rfl rfl
  exact ⟨_, _, _, hrun, rfl, hreplayed.1, hreplayed.2⟩

end HyperliquidApi.Session
